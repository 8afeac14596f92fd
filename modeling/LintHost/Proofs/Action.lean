import LintHost.Proofs.Results
import LintHost.World

/-!
# How operations run

`Action.run` gives the result of an operation and the session after it. This file says once how the
parts of an operation run, and fixes the two forms in which the theory speaks about runs:

* `Action.Ends`: what one run ends with, from every session of a kind;
* `Action.Alike`: what two runs of one operation end with, from any two related sessions: the same
  result, and sessions that are related again. The relation may change on the way (`R` before, `Q`
  after success, `E` after a fault), so a run can be followed through the points where it settles
  something that the two sessions had not in common;
* `Alike.keeps`: a relation that every run keeps, read for one run.

The log is the one thing that changes what an operation can see while it runs. On a machine that
keeps it in a file, two runs see the same only if they have told the same (`Alike.read_bind`); a
world stands for the machine that keeps none, and there all see what is there.

`World.bare` is the machine that examples start from.
-/

namespace LintHost

/-- A machine without files, on which no child can be started; what would be started is only
    rehearsed. -/
def World.bare : World where
  host := ⟨"linux", "3.11.2", true, "/tools", "/.env", ⟨"/root", []⟩⟩
  files := .empty
  env := []
  cwd := "/"
  answer := fun _ _ => .unstartable 2
  stamp := fun _ _ => ⟨"", ""⟩

/-! ## 1. What an operation finds -/

/-- Where no log is kept in a file, telling changes nothing. -/
@[simp] theorem Machine.now_plain (w : World) (s : Session) : (Machine.plain w).now s = w := rfl

theorem World.after_of_none {setup : Log.Setup} (h : setup.file = none) (w : World)
    (records : List Log.Record) : w.after setup records = w := by
  unfold after
  rw [h]

/-- Only files change when something is told. -/
theorem World.after_eq (w : World) (setup : Log.Setup) (records : List Log.Record) :
    ∃ files, w.after setup records = { w with files := files } := by
  unfold after
  cases setup.file with
  | none => exact ⟨w.files, rfl⟩
  | some file => exact ⟨_, rfl⟩

theorem World.after_cwd (w : World) (setup : Log.Setup) (records : List Log.Record) :
    (w.after setup records).cwd = w.cwd := by
  obtain ⟨files, h⟩ := w.after_eq setup records
  rw [h]

/-- Where nothing was told yet, the log is as it was found. -/
theorem World.after_nil (w : World) (setup : Log.Setup) : w.after setup [] = w := by
  unfold after
  cases setup.file <;> rfl

namespace Machine

variable (m : Machine) (s : Session)

@[simp] theorem now_host : (m.now s).host = m.world.host := by
  obtain ⟨files, h⟩ := m.world.after_eq m.setup s.log
  rw [now, h]

@[simp] theorem now_env : (m.now s).env = m.world.env := by
  obtain ⟨files, h⟩ := m.world.after_eq m.setup s.log
  rw [now, h]

@[simp] theorem now_cwd : (m.now s).cwd = m.world.cwd := m.world.after_cwd m.setup s.log

@[simp] theorem now_answer : (m.now s).answer = m.world.answer := by
  obtain ⟨files, h⟩ := m.world.after_eq m.setup s.log
  rw [now, h]

end Machine

namespace Action

variable {α β : Type} {m : Machine} {w : World}

/-! ## 2. Running the parts -/

@[simp] theorem run_pure (a : α) (s : Session) : run (pure a) m s = (.ok a, s) := rfl

@[simp] theorem run_throw (fault : Fault) (s : Session) :
    run (throw fault : Action α) m s = (.error fault, s) := rfl

/-- What is read is the world with what was told so far. -/
theorem run_now (s : Session) : run (read : Action World) m s = (.ok (m.now s), s) := rfl

@[simp] theorem run_read (s : Session) : run (read : Action World) w s = (.ok w, s) := rfl

@[simp] theorem run_get (s : Session) : run (get : Action Session) m s = (.ok s, s) := rfl

@[simp] theorem run_modify (change : Session → Session) (s : Session) :
    run (modify change : Action PUnit) m s = (.ok ⟨⟩, change s) := rfl

@[simp] theorem run_context (s : Session) : run context m s = (.ok s.context, s) := rfl

@[simp] theorem run_tell (source : String) (level : Log.Level) (message : String) (s : Session) :
    run (tell source level message) m s =
      (.ok ⟨⟩, { s with log := s.log ++ [⟨source, level.number, message⟩] }) := rfl

@[simp] theorem run_modifyContext (change : Context → Context) (s : Session) :
    run (modifyContext change) m s = (.ok ⟨⟩, { s with context := change s.context }) := rfl

@[simp] theorem run_modifyCache (change : Cache → Cache) (s : Session) :
    run (modifyCache change) m s = (.ok ⟨⟩, { s with cache := change s.cache }) := rfl

@[simp] theorem run_ofExcept (result : Except Fault α) (s : Session) :
    run (ofExcept result) m s = (result, s) := by
  cases result <;> rfl

/-- Where the first part succeeds, the run goes on with the second. -/
theorem run_bind_ok {x : Action α} {f : α → Action β} {s s' : Session} {a : α}
    (h : run x m s = (.ok a, s')) : run (x >>= f) m s = run (f a) m s' := by
  unfold run at h ⊢
  rw [ReaderT.run_bind, ExceptT.run_bind, StateT.run_bind, h]
  rfl

/-- Where the first part fails, the run has ended. -/
theorem run_bind_error {x : Action α} {f : α → Action β} {s s' : Session} {fault : Fault}
    (h : run x m s = (.error fault, s')) : run (x >>= f) m s = (.error fault, s') := by
  unfold run at h ⊢
  rw [ReaderT.run_bind, ExceptT.run_bind, StateT.run_bind, h]
  rfl

/-- What a run gives is computed from what its parts give. -/
theorem run_bind_result {x : Action α} {f : α → Action β} {g : α → Except Fault β}
    {s t : Session} {result : Except Fault α} (hx : run x m s = (result, t))
    (hf : ∀ a, (run (f a) m t).1 = g a) : (run (x >>= f) m s).1 = result >>= g := by
  cases result with
  | ok a =>
    rw [run_bind_ok hx]
    exact hf a
  | error fault =>
    rw [run_bind_error hx]
    rfl

/-- A run that succeeds has succeeded in both parts. -/
theorem of_run_bind {x : Action α} {f : α → Action β} {s t : Session} {b : β}
    (h : run (x >>= f) m s = (.ok b, t)) :
    ∃ a s', run x m s = (.ok a, s') ∧ run (f a) m s' = (.ok b, t) := by
  rcases hx : run x m s with ⟨result, s'⟩
  cases result with
  | ok a =>
    rw [run_bind_ok hx] at h
    exact ⟨a, s', rfl, h⟩
  | error fault =>
    rw [run_bind_error hx] at h
    cases h

theorem run_map (f : α → β) (x : Action α) (s : Session) :
    run (f <$> x) m s = ((run x m s).1.map f, (run x m s).2) := by
  rw [map_eq_pure_bind]
  rcases hx : run x m s with ⟨result, s'⟩
  cases result with
  | ok a => exact run_bind_ok hx
  | error fault => exact run_bind_error hx

theorem run_discard (x : Action α) (s : Session) :
    run (discard x) m s = ((run x m s).1.map (Function.const α PUnit.unit), (run x m s).2) := by
  show run (Function.const α PUnit.unit <$> x) m s = _
  exact run_map _ x s

theorem run_now_bind (f : World → Action β) (s : Session) :
    run (read >>= f) m s = run (f (m.now s)) m s := run_bind_ok (run_now s)

@[simp] theorem run_read_bind (f : World → Action β) (s : Session) :
    run (read >>= f) w s = run (f w) w s := run_bind_ok (run_read s)

@[simp] theorem run_get_bind (f : Session → Action β) (s : Session) :
    run (get >>= f) m s = run (f s) m s := run_bind_ok (run_get s)

@[simp] theorem run_context_bind (f : Context → Action β) (s : Session) :
    run (context >>= f) m s = run (f s.context) m s := run_bind_ok (run_context s)

/-- Telling does not move the working directory. -/
theorem run_absolute_now (path : String) (s : Session) :
    run (absolute path) m s = (.ok (Path.absolute m.world.cwd path), s) := by
  rw [← m.now_cwd s]
  rfl

@[simp] theorem run_absolute (path : String) (s : Session) :
    run (absolute path) w s = (.ok (Path.absolute w.cwd path), s) := rfl

@[simp] theorem run_absolute_bind (path : String) (f : String → Action β) (s : Session) :
    run (absolute path >>= f) w s = run (f (Path.absolute w.cwd path)) w s :=
  run_bind_ok (run_absolute path s)

/-- Nor does it change what paths are cleaned with. -/
theorem run_cleanPath_now (path : String) (s : Session) :
    run (cleanPath path) m s = (Path.clean m.world.host.homes m.world.env path, s) := by
  rw [cleanPath, run_now_bind, run_ofExcept, m.now_host, m.now_env]

@[simp] theorem run_cleanPath (path : String) (s : Session) :
    run (cleanPath path) w s = (Path.clean w.host.homes w.env path, s) := run_cleanPath_now path s

/-! ## 3. One run -/

/-- What a run ends with: a result and a session of which `Q` holds, or a fault and a session of
    which `E` holds. -/
def Outcome (Q : α → Session → Prop) (E : Session → Prop) : Except Fault α × Session → Prop
  | (.ok a, s) => Q a s
  | (.error _, s) => E s

/-- **From every session of which `P` holds** the operation ends with a result and a session of
    which `Q` holds, or with a fault and a session of which `E` holds. -/
structure Ends (m : Machine) (P : Session → Prop) (x : Action α) (Q : α → Session → Prop)
    (E : Session → Prop) : Prop where
  outcome : ∀ s, P s → Outcome Q E (x.run m s)

section Ends

variable {P : Session → Prop} {Q Q' : α → Session → Prop} {E E' : Session → Prop}

theorem Ends.pure {a : α} (h : ∀ s, P s → Q a s) : Ends m P (pure a) Q E := ⟨h⟩

theorem Ends.throw {fault : Fault} (h : ∀ s, P s → E s) :
    Ends m P (throw fault : Action α) Q E := ⟨h⟩

theorem Ends.bind {x : Action α} {f : α → Action β} {Q' : β → Session → Prop}
    (hx : Ends m P x Q E) (hf : ∀ a, Ends m (Q a) (f a) Q' E) : Ends m P (x >>= f) Q' E := by
  refine ⟨fun s hs => ?_⟩
  have hx' := hx.outcome s hs
  rcases hr : x.run m s with ⟨result, s'⟩
  rw [hr] at hx'
  cases result with
  | ok a => rw [run_bind_ok hr]; exact (hf a).outcome s' hx'
  | error fault => rw [run_bind_error hr]; exact hx'

theorem Ends.discard_bind {x : Action α} {f : PUnit → Action β} {Q' : β → Session → Prop}
    (hx : Ends m P x Q E) (hf : ∀ a, Ends m (Q a) (f ⟨⟩) Q' E) :
    Ends m P (discard x >>= f) Q' E := by
  have hsame : (discard x >>= f) = x >>= fun _ => f ⟨⟩ := by
    show ((Function.const α PUnit.unit <$> x) >>= f) = _
    rw [map_eq_pure_bind, bind_assoc]
    rfl
  rw [hsame]
  exact hx.bind hf

theorem Ends.ofExcept {result : Except Fault α} (hok : ∀ a, result = .ok a → ∀ s, P s → Q a s)
    (herror : ∀ s, P s → E s) : Ends m P (ofExcept result) Q E := by
  refine ⟨fun s hs => ?_⟩
  rw [run_ofExcept]
  cases result with
  | ok a => exact hok a rfl s hs
  | error fault => exact herror s hs

theorem Ends.mono {x : Action α} {P' : Session → Prop} (h : Ends m P x Q E)
    (hP : ∀ s, P' s → P s) (hQ : ∀ a s, Q a s → Q' a s) (hE : ∀ s, E s → E' s) :
    Ends m P' x Q' E' := by
  refine ⟨fun s hs => ?_⟩
  have h' := h.outcome s (hP s hs)
  rcases hr : x.run m s with ⟨result, s'⟩
  rw [hr] at h'
  cases result with
  | ok a => exact hQ a s' h'
  | error fault => exact hE s' h'

theorem Ends.read_bind {f : World → Action β} {Q : β → Session → Prop}
    (h : Ends w P (f w) Q E) : Ends w P (read >>= f) Q E := by
  refine ⟨fun s hs => ?_⟩
  rw [run_read_bind]
  exact h.outcome s hs

/-- Whatever is read, if only the rest does not care. -/
theorem Ends.now_bind {f : World → Action β} {Q : β → Session → Prop}
    (h : ∀ world, Ends m P (f world) Q E) : Ends m P (read >>= f) Q E := by
  refine ⟨fun s hs => ?_⟩
  rw [run_now_bind]
  exact (h _).outcome s hs

theorem Ends.cleanPath_bind {path : String} {f : String → Action β} {Q : β → Session → Prop}
    (h : ∀ given, Path.clean m.world.host.homes m.world.env path = .ok given → Ends m P (f given) Q E)
    (hfault : ∀ s, P s → E s) : Ends m P (cleanPath path >>= f) Q E := by
  refine ⟨fun s hs => ?_⟩
  have hrun := run_cleanPath_now (m := m) path s
  cases hclean : Path.clean m.world.host.homes m.world.env path with
  | ok given =>
    rw [hclean] at hrun
    rw [run_bind_ok hrun]
    exact (h given hclean).outcome s hs
  | error fault =>
    rw [hclean] at hrun
    rw [run_bind_error hrun]
    exact hfault s hs

/-- What is known besides, of whatever session, may be assumed. -/
theorem Ends.assume {x : Action α} {p : Prop} (h : p → Ends m P x Q E) :
    Ends m (fun s => P s ∧ p) x Q E :=
  ⟨fun s hs => (h hs.2).outcome s hs.1⟩

/-- What is known of the result is known after the run besides. -/
theorem Ends.result {x : Action α} {B : α → Prop} (h : Ends m P x Q E)
    (hresult : ∀ s a, P s → (x.run m s).1 = .ok a → B a) :
    Ends m P x (fun a s => Q a s ∧ B a) E := by
  refine ⟨fun s hs => ?_⟩
  have h' := h.outcome s hs
  have hr := hresult s
  rcases hx : x.run m s with ⟨result, s'⟩
  rw [hx] at h' hr
  cases result with
  | ok a => exact ⟨h', hr a hs rfl⟩
  | error fault => exact h'

/-- What holds after every end holds of the session after the run. -/
theorem Ends.session {x : Action α} (h : Ends m P x (fun _ => E) E) {s : Session} (hs : P s) :
    E (x.run m s).2 := by
  have h' := h.outcome s hs
  rcases hr : x.run m s with ⟨result, s'⟩
  rw [hr] at h'
  cases result <;> exact h'

end Ends

/-! ## 4. Two runs -/

/-- What two runs end with: one result and two sessions that `Q` relates, or one fault and two
    sessions that `E` relates. -/
def Matched (Q : α → Session → Session → Prop) (E : Session → Session → Prop) :
    Except Fault α × Session → Except Fault α × Session → Prop
  | (.ok a, s), (.ok b, t) => a = b ∧ Q a s t
  | (.error f, s), (.error g, t) => f = g ∧ E s t
  | _, _ => False

/-- **From any two sessions that `R` relates** the operation ends alike. -/
structure Alike (m : Machine) (E R : Session → Session → Prop) (x : Action α)
    (Q : α → Session → Session → Prop) : Prop where
  matched : ∀ s t, R s t → Matched Q E (x.run m s) (x.run m t)

section Alike

variable {E R : Session → Session → Prop} {Q : α → Session → Session → Prop}

/-- Matched ends have one result. -/
theorem Matched.result {p q : Except Fault α × Session} (h : Matched Q E p q) : p.1 = q.1 := by
  obtain ⟨p, s⟩ := p
  obtain ⟨q, t⟩ := q
  cases p with
  | ok a => cases q with
    | ok b => exact congrArg Except.ok h.1
    | error g => exact h.elim
  | error f => cases q with
    | ok b => exact h.elim
    | error g => exact congrArg Except.error h.1

/-- Matched ends have related sessions, if `E` says no more than `Q`. -/
theorem Matched.sessions {p q : Except Fault α × Session} (h : Matched Q E p q)
    (hQ : ∀ a s t, Q a s t → E s t) : E p.2 q.2 := by
  obtain ⟨p, s⟩ := p
  obtain ⟨q, t⟩ := q
  cases p with
  | ok a => cases q with
    | ok b => exact hQ a s t h.2
    | error g => exact h.elim
  | error f => cases q with
    | ok b => exact h.elim
    | error g => exact h.2

theorem Alike.pure {a : α} (h : ∀ s t, R s t → Q a s t) : Alike m E R (pure a) Q :=
  ⟨fun s t hst => ⟨rfl, h s t hst⟩⟩

theorem Alike.throw {fault : Fault} (h : ∀ s t, R s t → E s t) :
    Alike m E R (throw fault : Action α) Q :=
  ⟨fun s t hst => ⟨rfl, h s t hst⟩⟩

theorem Alike.bind {x : Action α} {f : α → Action β} {Q' : β → Session → Session → Prop}
    (hx : Alike m E R x Q) (hf : ∀ a, Alike m E (Q a) (f a) Q') : Alike m E R (x >>= f) Q' := by
  refine ⟨fun s t hst => ?_⟩
  have hx' := hx.matched s t hst
  rcases hp : x.run m s with ⟨p, s'⟩
  rcases hq : x.run m t with ⟨q, t'⟩
  rw [hp, hq] at hx'
  cases p with
  | ok a => cases q with
    | ok b =>
      obtain ⟨rfl, h⟩ := hx'
      rw [run_bind_ok hp, run_bind_ok hq]
      exact (hf a).matched s' t' h
    | error g => exact hx'.elim
  | error f => cases q with
    | ok b => exact hx'.elim
    | error g =>
      rw [run_bind_error hp, run_bind_error hq]
      exact hx'

theorem Alike.map {x : Action α} {f : α → β} {Q' : β → Session → Session → Prop}
    (hx : Alike m E R x Q) (h : ∀ a s t, Q a s t → Q' (f a) s t) : Alike m E R (f <$> x) Q' := by
  rw [map_eq_pure_bind]
  exact hx.bind fun a => .pure (h a)

theorem Alike.ofExcept {result : Except Fault α}
    (hok : ∀ a, result = .ok a → ∀ s t, R s t → Q a s t)
    (herror : ∀ s t, R s t → E s t) : Alike m E R (ofExcept result) Q := by
  refine ⟨fun s t hst => ?_⟩
  rw [run_ofExcept, run_ofExcept]
  cases result with
  | ok a => exact ⟨rfl, hok a rfl s t hst⟩
  | error fault => exact ⟨rfl, herror s t hst⟩

/-- Where related sessions see the same, what is read makes no difference between them. -/
theorem Alike.read_bind {f : World → Action β} {Q : β → Session → Session → Prop}
    (hsees : ∀ s t, R s t → m.now s = m.now t) (h : ∀ world, Alike m E R (f world) Q) :
    Alike m E R (read >>= f) Q := by
  refine ⟨fun s t hst => ?_⟩
  rw [run_now_bind, run_now_bind, hsees s t hst]
  exact (h _).matched s t hst

theorem Alike.absolute_bind {path : String} {f : String → Action β}
    {Q : β → Session → Session → Prop} (h : Alike m E R (f (Path.absolute m.world.cwd path)) Q) :
    Alike m E R (absolute path >>= f) Q := by
  refine ⟨fun s t hst => ?_⟩
  rw [run_bind_ok (run_absolute_now path s), run_bind_ok (run_absolute_now path t)]
  exact h.matched s t hst

theorem Alike.cleanPath_bind {path : String} {f : String → Action β}
    {Q : β → Session → Session → Prop}
    (h : ∀ given, Path.clean m.world.host.homes m.world.env path = .ok given →
      Alike m E R (f given) Q)
    (hfault : ∀ s t, R s t → E s t) : Alike m E R (cleanPath path >>= f) Q := by
  refine ⟨fun s t hst => ?_⟩
  have hs := run_cleanPath_now (m := m) path s
  have ht := run_cleanPath_now (m := m) path t
  cases hclean : Path.clean m.world.host.homes m.world.env path with
  | ok given =>
    rw [hclean] at hs ht
    rw [run_bind_ok hs, run_bind_ok ht]
    exact (h given hclean).matched s t hst
  | error fault =>
    rw [hclean] at hs ht
    rw [run_bind_error hs, run_bind_error ht]
    exact ⟨rfl, hfault s t hst⟩

theorem Alike.modifyContext {change : Context → Context} {Q : PUnit → Session → Session → Prop}
    (h : ∀ s t, R s t →
      Q ⟨⟩ { s with context := change s.context } { t with context := change t.context }) :
    Alike m E R (modifyContext change) Q :=
  ⟨fun s t hst => ⟨rfl, h s t hst⟩⟩

/-- What is known besides, of whatever sessions, may be assumed. -/
theorem Alike.assume {x : Action α} {p : Prop} (h : p → Alike m E R x Q) :
    Alike m E (fun s t => R s t ∧ p) x Q :=
  ⟨fun s t hst => (h hst.2).matched s t hst.1⟩

/-- What is known of every result is known after the runs besides. -/
theorem Alike.result {x : Action α} {B : α → Prop} (h : Alike m E R x Q)
    (hB : ∀ s a, (x.run m s).1 = .ok a → B a) : Alike m E R x fun a s t => Q a s t ∧ B a := by
  refine ⟨fun s t hst => ?_⟩
  have h' := h.matched s t hst
  have hs := hB s
  rcases hp : x.run m s with ⟨p, s'⟩
  rcases hq : x.run m t with ⟨q, t'⟩
  rw [hp, hq] at h'
  rw [hp] at hs
  cases p with
  | ok a => cases q with
    | ok b => exact ⟨h'.1, h'.2, hs a rfl⟩
    | error g => exact h'.elim
  | error f => cases q with
    | ok b => exact h'.elim
    | error g => exact h'

/-- **A relation that holds of equal sessions only**: what two runs keep, one run keeps. -/
theorem Alike.keeps {x : Action α} {P : Session → Prop}
    (h : Alike m (fun s t => s = t ∧ P s) (fun s t => s = t ∧ P s) x fun _ s t => s = t ∧ P s) :
    Ends m P x (fun _ => P) P := by
  refine ⟨fun s hs => ?_⟩
  have h' := h.matched s s ⟨rfl, hs⟩
  rcases hp : x.run m s with ⟨p, s'⟩
  rw [hp] at h'
  cases p with
  | ok a => exact h'.2.2
  | error f => exact h'.2.2

end Alike

end Action

end LintHost
