/-!
# Outcomes of checks

A check accepts or stops at its first fault. Checks are put together in two ways only: one
runs after the other, and the fault of a part is wrapped on its way out. What the whole
answers is then read off the answers of the parts, one statement for each way and each
answer.
-/

namespace ConfigSchema.Outcome

variable {ε ε' α β : Type}

/-- Two checks in a row accept exactly if both do. -/
theorem bind_eq_ok_iff {x : Except ε α} {f : α → Except ε β} {b : β} :
    (x >>= f) = .ok b ↔ ∃ a, x = .ok a ∧ f a = .ok b := by
  cases x with
  | error e =>
    constructor
    · intro h
      cases h
    · rintro ⟨a, h, -⟩
      cases h
  | ok a =>
    constructor
    · exact fun h => ⟨a, rfl, h⟩
    · rintro ⟨a', h, hf⟩
      cases h
      exact hf

/-- Two checks in a row stop where the first of them stops, or where the second does once
the first accepts. -/
theorem bind_eq_error_iff {x : Except ε α} {f : α → Except ε β} {e : ε} :
    (x >>= f) = .error e ↔ x = .error e ∨ ∃ a, x = .ok a ∧ f a = .error e := by
  cases x with
  | error e' =>
    constructor
    · intro h
      exact Or.inl (by cases h; rfl)
    · rintro (h | ⟨a, h, -⟩)
      · cases h
        rfl
      · cases h
  | ok a =>
    constructor
    · exact fun h => Or.inr ⟨a, rfl, h⟩
    · rintro (h | ⟨a', h, hf⟩)
      · cases h
      · cases h
        exact hf

/-- A changed result is that of a result. -/
theorem map_eq_ok_iff {x : Except ε α} {f : α → β} {b : β} :
    x.map f = .ok b ↔ ∃ a, x = .ok a ∧ f a = b := by
  cases x with
  | error e =>
    constructor
    · intro h
      cases h
    · rintro ⟨a, h, -⟩
      cases h
  | ok a =>
    constructor
    · exact fun h => ⟨a, rfl, Except.ok.inj h⟩
    · rintro ⟨a', h, rfl⟩
      cases h
      rfl

/-- If the first of two checks in a row carries nothing, both have to accept. -/
theorem check_bind_eq_ok_iff {x : Except ε Unit} {f : Unit → Except ε β} {b : β} :
    (x >>= f) = .ok b ↔ x = .ok () ∧ f () = .ok b := by
  rw [bind_eq_ok_iff]
  exact ⟨fun ⟨_, h⟩ => h, fun h => ⟨(), h⟩⟩

/-- If the first of two checks in a row carries nothing, either it stops, or it accepts and
the second stops. -/
theorem check_bind_eq_error_iff {x : Except ε Unit} {f : Unit → Except ε β} {e : ε} :
    (x >>= f) = .error e ↔ x = .error e ∨ (x = .ok () ∧ f () = .error e) := by
  rw [bind_eq_error_iff]
  exact or_congr Iff.rfl ⟨fun ⟨_, h⟩ => h, fun h => ⟨(), h⟩⟩

/-- Wrapping a fault does not change what is accepted. -/
@[simp] theorem mapError_eq_ok_iff {x : Except ε α} {f : ε → ε'} {a : α} :
    x.mapError f = .ok a ↔ x = .ok a := by
  cases x with
  | error e =>
    constructor
    · intro h
      cases h
    · intro h
      cases h
  | ok a' =>
    constructor
    · intro h
      cases h
      rfl
    · intro h
      cases h
      rfl

/-- The fault of a wrapped check is the wrapped fault of the check. -/
theorem mapError_eq_error_iff {x : Except ε α} {f : ε → ε'} {e' : ε'} :
    x.mapError f = .error e' ↔ ∃ e, x = .error e ∧ f e = e' := by
  cases x with
  | error e =>
    constructor
    · intro h
      cases h
      exact ⟨e, rfl, rfl⟩
    · rintro ⟨e, he, rfl⟩
      cases he
      rfl
  | ok a =>
    constructor
    · intro h
      cases h
    · rintro ⟨e, he, -⟩
      cases he

/-! ### Faults in a list -/

/-- **The outcome of a check that comes upon faults** in the order of a list: it stops at the
first one. -/
def ofFaults : List ε → Except ε Unit
  | [] => .ok ()
  | e :: _ => .error e

variable {faults faults' : List ε} {e : ε}

/-- A check accepts where there is no fault. -/
theorem ofFaults_eq_ok_iff : ofFaults faults = .ok () ↔ faults = [] := by
  cases faults <;> simp [ofFaults]

/-- A check that does not accept stops at the first of the faults. -/
theorem ofFaults_eq_error_iff : ofFaults faults = .error e ↔ faults.head? = some e := by
  cases faults <;> simp [ofFaults]

/-- Faults in two lists are come upon one list after the other. -/
theorem ofFaults_append :
    ofFaults (faults ++ faults') = ofFaults faults >>= fun _ => ofFaults faults' := by
  cases faults <;> rfl

/-- Of wrapped faults the first one is the first one, wrapped. -/
theorem ofFaults_map (f : ε → ε') : ofFaults (faults.map f) = (ofFaults faults).mapError f := by
  cases faults <;> rfl

end ConfigSchema.Outcome
