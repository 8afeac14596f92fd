import LintHost.Fault

/-!
# Results and failures

What a computation comes to is a result or a failure. This file has the few facts about them, and
about lists of entries, that all theory here needs.

* `Fails`: a computation comes to a failure;
* `Fault.Reported`: a failure that the library reports on its own account;
* `Foreign`: a computation reports none.
-/

namespace LintHost

variable {ε α β : Type}

/-! ## 1. Results -/

/-- A computation goes on after a first part that has succeeded. -/
theorem Except.ok_bind (a : α) (f : α → Except ε β) : (Except.ok a >>= f) = f a := rfl

/-- A computation ends where a first part has failed. -/
theorem Except.error_bind (fault : ε) (f : α → Except ε β) :
    (Except.error fault >>= f) = .error fault := rfl

theorem Except.map_eq_bind (f : α → β) (x : Except ε α) : x.map f = x >>= fun a => .ok (f a) := by
  cases x <;> rfl

/-- What succeeds in two steps succeeds in each. -/
theorem Except.bind_eq_ok {x : Except ε α} {f : α → Except ε β} {b : β}
    (h : x >>= f = .ok b) : ∃ a, x = .ok a ∧ f a = .ok b := by
  cases x with
  | ok a => exact ⟨a, rfl, h⟩
  | error fault => cases h

/-- What fails in two steps fails in the first, or in the second after the first. -/
theorem Except.bind_eq_error {x : Except ε α} {f : α → Except ε β} {fault : ε}
    (h : x >>= f = .error fault) : x = .error fault ∨ ∃ a, x = .ok a ∧ f a = .error fault := by
  cases x with
  | ok a => exact .inr ⟨a, rfl, h⟩
  | error other =>
    cases h
    exact .inl rfl

theorem Except.map_eq_ok {f : α → β} {x : Except ε α} {b : β} (h : x.map f = .ok b) :
    ∃ a, x = .ok a ∧ f a = b := by
  cases x with
  | ok a => exact ⟨a, rfl, Except.ok.inj h⟩
  | error fault => cases h

theorem Except.map_eq_error {f : α → β} {x : Except ε α} {fault : ε} :
    x.map f = .error fault ↔ x = .error fault := by
  cases x with
  | ok a => exact iff_of_false nofun nofun
  | error other => rw [Except.map, Except.error.injEq, Except.error.injEq]

theorem Except.eq_ok_of_toOption {x : Except ε α} {a : α} (h : x.toOption = some a) :
    x = .ok a := by
  cases x with
  | ok b => exact congrArg Except.ok (Option.some.inj h)
  | error fault => cases h

theorem Except.mem_toOption {x : Except ε α} {a : α} :
    a ∈ x.toOption.toList ↔ x = .ok a := by
  cases x with
  | ok b => simp [Except.toOption, eq_comm]
  | error fault => exact iff_of_false List.not_mem_nil nofun

theorem LookupFault.lift_eq_ok {path : String} {x : Except LookupFault α} {a : α} :
    lift path x = .ok a ↔ x = .ok a := by
  cases x with
  | ok b =>
    constructor
    · intro h
      cases h
      rfl
    · intro h
      cases h
      rfl
  | error fault => exact iff_of_false nofun nofun

theorem exists_of_isOk {x : Except ε α} (h : x.isOk = true) : ∃ a, x = .ok a := by
  cases x with
  | ok a => exact ⟨a, rfl⟩
  | error fault => cases h

/-! ## 2. Failures -/

/-- A computation comes to a failure. -/
def Fails (x : Except ε α) : Prop := ∃ fault, x = .error fault

theorem not_fails_ok {a : α} : ¬Fails (.ok a : Except ε α) := fun ⟨_, h⟩ => (nomatch h)

theorem fails_ok (a : α) : Fails (.ok a : Except ε α) ↔ False := iff_false_intro not_fails_ok

theorem fails_pure (a : α) : Fails (pure a : Except ε α) ↔ False := fails_ok a

/-- What does not fail comes to a result. -/
theorem not_fails_iff {x : Except ε α} : ¬Fails x ↔ ∃ a, x = .ok a := by
  cases x with
  | ok a => exact iff_of_true not_fails_ok ⟨a, rfl⟩
  | error fault => exact iff_of_false (not_not_intro ⟨fault, rfl⟩) nofun

theorem fails_of_isOk {x : Except ε α} (h : x.isOk = false) : Fails x := by
  cases x with
  | ok a => cases h
  | error fault => exact ⟨fault, rfl⟩

/-- Two steps, of which the second fails or not whatever the first comes to. -/
theorem fails_bind {x : Except ε α} {f : α → Except ε β} {Q : Prop}
    (h : ∀ a, Fails (f a) ↔ Q) : Fails (x >>= f) ↔ Fails x ∨ Q := by
  cases x with
  | error fault => exact ⟨fun _ => .inl ⟨fault, rfl⟩, fun _ => ⟨fault, rfl⟩⟩
  | ok a => rw [Except.ok_bind, h, fails_ok, false_or]

theorem fails_map {x : Except ε α} {f : α → β} : Fails (x.map f) ↔ Fails x := by
  cases x with
  | error fault => exact ⟨fun _ => ⟨fault, rfl⟩, fun _ => ⟨fault, rfl⟩⟩
  | ok a => exact ⟨fun ⟨_, h⟩ => (nomatch h), fun ⟨_, h⟩ => (nomatch h)⟩

theorem fails_mapM {f : α → Except ε β} : ∀ as : List α,
    Fails (as.mapM f) ↔ ∃ a ∈ as, Fails (f a)
  | [] => by
    rw [List.mapM_nil, fails_pure]
    simp
  | a :: as => by
    rw [List.mapM_cons, fails_bind fun _ => fails_bind fun _ => fails_pure _, fails_mapM as]
    simp

/-! ## 3. Reports -/

/-- A failure that the library reports on its own account. -/
def Fault.Reported (fault : Fault) : Prop := ∃ failure, fault = .reported failure

theorem Fault.not_reported_ofLookup (path : String) (fault : LookupFault) :
    ¬(Fault.ofLookup path fault).Reported := by
  rintro ⟨failure, h⟩
  cases fault <;> cases h

/-- None of a computation's failures is one that the library reports. -/
def Foreign (x : Except Fault α) : Prop := ∀ fault, x = .error fault → ¬fault.Reported

theorem foreign_ok (a : α) : Foreign (.ok a) := nofun

theorem foreign_error {fault : Fault} (h : ¬fault.Reported) :
    Foreign (.error fault : Except Fault α) := fun _ hfault => Except.error.inj hfault ▸ h

theorem Foreign.bind {x : Except Fault α} {f : α → Except Fault β} (hx : Foreign x)
    (hf : ∀ a, Foreign (f a)) : Foreign (x >>= f) := by
  intro fault h
  rcases Except.bind_eq_error h with h | ⟨a, -, h⟩
  · exact hx fault h
  · exact hf a fault h

theorem Foreign.map {x : Except Fault α} {f : α → β} (hx : Foreign x) : Foreign (x.map f) := by
  cases x with
  | ok a => exact foreign_ok _
  | error fault => exact foreign_error (hx fault rfl)

theorem foreign_mapM {f : α → Except Fault β} (hf : ∀ a, Foreign (f a)) :
    ∀ as : List α, Foreign (as.mapM f)
  | [] => by
    rw [List.mapM_nil]
    exact foreign_ok _
  | a :: as => by
    rw [List.mapM_cons]
    exact (hf a).bind fun _ => (foreign_mapM hf as).bind fun _ => foreign_ok _

theorem foreign_lift (path : String) (x : Except LookupFault α) :
    Foreign (LookupFault.lift path x) := by
  cases x with
  | ok a => exact foreign_ok a
  | error fault => exact foreign_error (Fault.not_reported_ofLookup path fault)

/-! ## 4. Lists of entries -/

/-- What is listed under a key stays where another key is struck out. -/
theorem List.lookup_filter_ne {κ : Type} [DecidableEq κ] [BEq κ] [LawfulBEq κ] {key other : κ}
    (h : other ≠ key) : ∀ entries : List (κ × α),
      (entries.filter (·.1 ≠ key)).lookup other = entries.lookup other
  | [] => rfl
  | (k, a) :: rest => by
    have ih := lookup_filter_ne h rest
    by_cases hk : k = key
    · subst hk
      rw [List.filter_cons_of_neg (by simp), ih, List.lookup_cons, beq_false_of_ne h]
    · rw [List.filter_cons_of_pos (by simpa using hk), List.lookup_cons, List.lookup_cons, ih]

end LintHost
