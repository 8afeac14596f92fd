import LintHost.Proofs.PathText
import LintHost.Proofs.TwoRuns

/-!
# What is remembered

Three things are remembered from one operation to the next: what looking upwards has found, where
the bundled copy lies and the package manager's prefix. The first two depend on the files and on
the tools a context names; the prefix is whatever the package manager said when it was asked.

* `Cache.Coherent`: what is remembered of the first two is what would be found now, so the
  operations that use it end as if nothing were remembered (`find_run`, `bundledPath_run`);
* `Npm.asked`: what the package manager answers for an environment;
* `Tied`: two sessions that differ only in what they remember, where the first may know a prefix
  that the second still has to ask for; the primitives of every operation respect it.
-/

namespace LintHost

open LintHost.Action

variable {m : Machine} {w : World}

/-! ## 1. Looking upwards -/

namespace Finder

/-- What looking upwards finds when nothing is remembered. -/
def fresh (w : World) (start : String) (names : List String) : Except Fault (Option String) :=
  search w.files w.cwd names (PartPath.ofText (Path.absolute w.cwd start))

end Finder

/-- Whatever is remembered for a directory is what a search from there finds. -/
def FinderMemo.Coherent (w : World) (memo : FinderMemo) : Prop :=
  ∀ directory names found, memo.lookup (directory, names) = some found →
    Finder.search w.files w.cwd names (PartPath.ofText directory) = .ok found

theorem FinderMemo.coherent_nil : FinderMemo.Coherent w [] := by
  intro directory names found h
  cases h

theorem FinderMemo.Coherent.append {memo : FinderMemo} (h : memo.Coherent w) {directory : String}
    {names : List String} {found : Option String}
    (hfound : Finder.search w.files w.cwd names (PartPath.ofText directory) = .ok found) :
    FinderMemo.Coherent w (memo ++ [((directory, names), found)]) := by
  intro directory' names' found' h'
  rw [List.lookup_append] at h'
  cases hm : memo.lookup (directory', names') with
  | some known =>
    have hknown : known = found' := by simpa [hm] using h'
    rw [← hknown]
    exact h directory' names' known hm
  | none =>
    rw [hm, Option.none_or, List.lookup_cons] at h'
    by_cases he : (directory', names') = (directory, names)
    · obtain ⟨rfl, rfl⟩ := Prod.mk.inj he
      have hknown : found = found' := by simpa using h'
      rw [← hknown]
      exact hfound
    · rw [beq_false_of_ne he] at h'
      cases h'

namespace Finder

/-- What the memo is asked for. -/
def key (w : World) (start : String) (names : List String) : String × List String :=
  ((PartPath.ofText (Path.absolute w.cwd start)).text, names)

theorem find_known {s : Session} {start : String} {names : List String} {found : Option String}
    (h : s.cache.finder.lookup (key w start names) = some found) :
    (find start names).run w s = (.ok found, s) := by
  unfold key at h
  unfold find
  rw [run_read_bind]
  simp only [run_get_bind, h]
  rfl

/-- What is not remembered is searched for; what is found is remembered, a fault is not. -/
theorem find_unknown {s : Session} {start : String} {names : List String}
    (h : s.cache.finder.lookup (key w start names) = none) :
    (find start names).run w s = (fresh w start names, { s with cache := { s.cache with
      finder := s.cache.finder ++
        ((fresh w start names).toOption.map (key w start names, ·)).toList } }) := by
  unfold key at h
  unfold find
  rw [run_read_bind]
  simp only [run_get_bind, h]
  cases hfound : fresh w start names with
  | ok found =>
    rw [run_bind_ok (by rw [run_ofExcept]; exact congrArg (·, s) hfound)]
    rfl
  | error fault =>
    rw [run_bind_error (by rw [run_ofExcept]; exact congrArg (·, s) hfound)]
    show _ = (_, { s with cache := { s.cache with finder := s.cache.finder ++ [] } })
    rw [List.append_nil]

/-- What the memo gains is what was found. -/
theorem mem_gained {start : String} {names : List String}
    {entry : (String × List String) × Option String} :
    entry ∈ ((fresh w start names).toOption.map (key w start names, ·)).toList ↔
      entry.1 = key w start names ∧ fresh w start names = .ok entry.2 := by
  obtain ⟨asked, found⟩ := entry
  cases fresh w start names with
  | error fault => exact iff_of_false List.not_mem_nil fun h => nomatch h.2
  | ok found' =>
    refine List.mem_singleton.trans ?_
    rw [Prod.mk.injEq, Except.ok.injEq, eq_comm (a := found)]

/-- **Looking upwards with a coherent memo** finds what a search finds; only the memo changes, and
    stays coherent. -/
theorem find_run {s : Session} (h : s.cache.finder.Coherent w) (start : String)
    (names : List String) : ∃ memo, FinderMemo.Coherent w memo ∧
      (find start names).run w s =
        (fresh w start names, { s with cache := { s.cache with finder := memo } }) := by
  have hread := PartPath.ofText_text (PartPath.plain_ofText (Path.absolute w.cwd start))
  cases hm : s.cache.finder.lookup (key w start names) with
  | some found =>
    have hfound : fresh w start names = .ok found := (congrArg _ hread).symm.trans (h _ _ _ hm)
    refine ⟨s.cache.finder, h, ?_⟩
    rw [find_known hm, hfound]
  | none =>
    refine ⟨_, ?_, find_unknown hm⟩
    cases hfound : fresh w start names with
    | ok found => exact h.append ((congrArg _ hread).trans hfound)
    | error fault =>
      show FinderMemo.Coherent w (s.cache.finder ++ [])
      rw [List.append_nil]
      exact h

/-- Looking upwards changes nothing but the memo. -/
theorem find_session (start : String) (names : List String) (s : Session) :
    ∃ memo, ((find start names).run m s).2 =
      { s with cache := { s.cache with finder := memo } } := by
  unfold find
  rw [run_now_bind]
  simp only [run_get_bind]
  split
  · exact ⟨s.cache.finder, rfl⟩
  · cases search (m.now s).files (m.now s).cwd names _ with
    | ok found => exact ⟨_, rfl⟩
    | error fault => exact ⟨s.cache.finder, rfl⟩

end Finder

/-! ## 2. The bundled copy -/

theorem NodeTools.bundledPath_known {s : Session} {path : String}
    (h : s.cache.bundledPath = some path) : bundledPath.run m s = (.ok path, s) := by
  unfold bundledPath
  rw [run_get_bind, h]
  rfl

theorem NodeTools.bundledPath_unknown_now {s : Session} (h : s.cache.bundledPath = none) :
    bundledPath.run m s = (bundled (m.now s) s.context.nodeToolsDir, { s with cache := { s.cache with
      bundledPath := (bundled (m.now s) s.context.nodeToolsDir).toOption } }) := by
  unfold bundledPath
  rw [run_get_bind, h]
  dsimp only
  rw [run_now_bind]
  cases hb : bundled (m.now s) s.context.nodeToolsDir with
  | ok path =>
    rw [run_bind_ok (run_ofExcept _ _)]
    rfl
  | error fault =>
    rw [run_bind_error (run_ofExcept _ _)]
    show _ = (_, { s with cache := { s.cache with bundledPath := none } })
    rw [← h]

theorem NodeTools.bundledPath_unknown {s : Session} (h : s.cache.bundledPath = none) :
    bundledPath.run w s = (bundled w s.context.nodeToolsDir, { s with
      cache := { s.cache with bundledPath := (bundled w s.context.nodeToolsDir).toOption } }) :=
  bundledPath_unknown_now h

/-- **Asking for the bundled copy**, where a remembered path is the right one for the context. -/
theorem NodeTools.bundledPath_run {s : Session}
    (h : ∀ path, s.cache.bundledPath = some path →
      bundled w s.context.nodeToolsDir = .ok path) :
    ∃ memo, (∀ path, memo = some path → bundled w s.context.nodeToolsDir = .ok path) ∧
      bundledPath.run w s = (bundled w s.context.nodeToolsDir,
        { s with cache := { s.cache with bundledPath := memo } }) := by
  cases hm : s.cache.bundledPath with
  | some path =>
    refine ⟨s.cache.bundledPath, h, ?_⟩
    rw [h path hm]
    exact bundledPath_known hm
  | none => exact ⟨_, fun path hpath => Except.eq_ok_of_toOption hpath, bundledPath_unknown hm⟩

/-- What is remembered of the files is what would be found for a context with these tools. -/
structure Cache.Coherent (w : World) (tools : Value) (cache : Cache) : Prop where
  finder : cache.finder.Coherent w
  bundledPath : ∀ path, cache.bundledPath = some path → NodeTools.bundled w tools = .ok path

theorem Cache.coherent_empty (tools : Value) : Cache.empty.Coherent w tools :=
  ⟨FinderMemo.coherent_nil, fun _ h => nomatch h⟩

theorem Cache.Coherent.withPrefix {tools : Value} {cache : Cache} (h : cache.Coherent w tools)
    (known : Option String) : Cache.Coherent w tools { cache with nodePrefix := known } :=
  ⟨h.finder, h.bundledPath⟩

/-! ## 3. Children -/

/-- How a child ends does not depend on the children before it. -/
def World.Memoryless (w : World) : Prop :=
  ∀ earlier request, w.answer earlier request = w.answer [] request

namespace Child

/-- The children of a request: one, unless it is refused. -/
def launched (w : World) (r : Request) : List Request :=
  if (refusal? w.host r).isSome then [] else [r]

/-- What the caller of a child gets that others were started before. -/
def reply (w : World) (earlier : List Request) (r : Request) :
    Except Fault (Except OsFault Result) :=
  match refusal? w.host r with
  | some fault => .error fault
  | none => ended w earlier r

theorem launched_accepted {r : Request} (h : refusal? w.host r = none) : launched w r = [r] := by
  unfold launched
  rw [h]
  rfl

theorem reply_accepted {r : Request} (h : refusal? w.host r = none) (earlier : List Request) :
    reply w earlier r = ended w earlier r := by
  unfold reply
  rw [h]

theorem launched_refused {r : Request} {fault : Fault} (h : refusal? w.host r = some fault) :
    launched w r = [] := by
  unfold launched
  rw [h]
  rfl

theorem reply_refused {r : Request} {fault : Fault} (h : refusal? w.host r = some fault)
    (earlier : List Request) : reply w earlier r = .error fault := by
  unfold reply
  rw [h]

/-- Any rehearsed child is waited for. -/
theorem awaited_rehearsed {host : Host} (h : host.rehearsed = true) (timeout : Value)
    (outcome : Outcome) : awaited host timeout outcome = .ok outcome := by
  have hwait : unwaited? host timeout = none := if_pos h
  cases outcome with
  | unstartable code => rfl
  | finished | garbled | timedOut => simp only [awaited, hwait]

/-- A rehearsed child takes any request, and is waited for. -/
theorem reply_rehearsed (h : w.host.rehearsed = true) (earlier : List Request) (r : Request) :
    reply w earlier r = Result.ofOutcome r (w.answer earlier r) := by
  have hrefusal : refusal? w.host r = none := if_pos h
  rw [reply_accepted hrefusal, ended, awaited_rehearsed h]
  rfl

theorem mem_launched {r other : Request} (h : other ∈ launched w r) : other = r := by
  unfold launched at h
  split at h
  · cases h
  · exact List.mem_singleton.mp h

theorem reply_memoryless (hw : w.Memoryless) (earlier : List Request) (r : Request) :
    reply w earlier r = reply w [] r := by
  unfold reply ended
  rw [hw earlier]

theorem words?_text : ∀ words : List String, words? (words.map .text) = some words
  | [] => rfl
  | word :: words => by rw [List.map_cons, words?, words?_text words]; rfl

theorem directory_now (m : Machine) (s : Session) (cwd : Option String) :
    directory (m.now s) cwd = directory m.world cwd := by
  rw [directory, m.now_cwd]
  rfl

variable {command : List Value} {words : List String}

/-- A command of texts starts one child, unless it is refused, and nothing else changes but the log.
    What the log holds makes no difference. -/
theorem run_words_now (h : words? command = some words) (cwd : Option String)
    (env : Option (Entries String)) (timeout : Value) (input : Option String) (s : Session) :
    let r : Request := ⟨words, directory m.world cwd, env, timeout, input⟩
    ∃ message, (run command cwd env timeout input).run m s = (reply m.world s.started r, { s with
      started := s.started ++ launched m.world r
      log := s.log ++ [⟨source, Log.Level.debug.number, message⟩] }) := by
  intro r
  refine ⟨"Running " ++ Text.join " " words ++ " in " ++ r.cwd, ?_⟩
  unfold run
  rw [run_now_bind, h]
  dsimp only
  rw [directory_now, m.now_host, run_bind_ok (run_tell _ _ _ _)]
  cases hrefusal : refusal? m.world.host r with
  | some fault =>
    dsimp only
    rw [run_throw, reply_refused hrefusal, launched_refused hrefusal, List.append_nil]
  | none =>
    dsimp only
    rw [reply_accepted hrefusal, launched_accepted hrefusal]
    rw [run_get_bind, run_bind_ok (run_modify _ _), run_ofExcept, ended, m.now_host, m.now_answer]
    rfl

theorem run_words (h : words? command = some words) (cwd : Option String)
    (env : Option (Entries String)) (timeout : Value) (input : Option String) (s : Session) :
    let r : Request := ⟨words, directory w cwd, env, timeout, input⟩
    ∃ message, (run command cwd env timeout input).run w s = (reply w s.started r, { s with
      started := s.started ++ launched w r
      log := s.log ++ [⟨source, Log.Level.debug.number, message⟩] }) :=
  run_words_now h cwd env timeout input s

/-- Any other command starts none. -/
theorem run_other (h : words? command = none) (cwd : Option String)
    (env : Option (Entries String)) (timeout : Value) (input : Option String) (s : Session) :
    (run command cwd env timeout input).run m s = (.error .wrongType, s) := by
  unfold run
  rw [run_now_bind, h]
  rfl

end Child

/-! ## 4. The package manager -/

namespace Npm

/-- The child that is asked for the prefix in an environment. -/
def request (w : World) (env : Entries String) : Child.Request :=
  ⟨command w.host.platform, Child.directory w none, some env, .null, none⟩

/-- What a child's result says about the prefix. -/
def reading (command : List String) (result : Except OsFault Child.Result) :
    Except Fault String :=
  match prefixOf command result with
  | .error failure => .error (.reported failure)
  | .ok found => .ok found

/-- What the package manager says in an environment when other children were started before. -/
def told (w : World) (earlier : List Child.Request) (env : Entries String) :
    Except Fault String :=
  Child.reply w earlier (request w env) >>= reading (command w.host.platform)

/-- What the package manager says in an environment when it is asked first. -/
def asked (w : World) (env : Entries String) : Except Fault String := told w [] env

theorem told_eq (hw : w.Memoryless) (earlier : List Child.Request) (env : Entries String) :
    told w earlier env = asked w env := by
  rw [asked, told, told, Child.reply_memoryless hw earlier]

/-- The children that are started where the prefix may be known already. -/
def spared (w : World) (known : Option String) (children : List Child.Request) :
    List Child.Request :=
  if known.isSome then children.filter fun r => r.command ≠ command w.host.platform else children

/-- **Asking the package manager** starts one child, unless it is refused. -/
theorem askPrefix_run (env : Entries String) (s : Session) :
    ∃ log, (askPrefix env m.world.host.platform).run m s =
      (told m.world s.started env, { s with
        started := s.started ++ Child.launched m.world (request m.world env), log := log }) := by
  obtain ⟨running, hrun⟩ := Child.run_words_now (m := m)
    (Child.words?_text (command m.world.host.platform)) none (some env) .null none s
  rw [← request] at hrun
  generalize s.log ++ [_] = log at hrun
  unfold askPrefix told
  dsimp only
  cases hr : Child.reply m.world s.started (request m.world env) with
  | error fault =>
    rw [hr] at hrun
    exact ⟨log, run_bind_error hrun⟩
  | ok result =>
    rw [hr] at hrun
    show ∃ log, _ = (reading _ result, _)
    unfold reading
    cases hp : prefixOf (command m.world.host.platform) result with
    | error failure =>
      refine ⟨log, (run_bind_ok hrun).trans ?_⟩
      rw [hp]
      rfl
    | ok found =>
      let message := "npm prefix resolved to " ++ found
      refine ⟨log ++ [⟨source, Log.Level.debug.number, message⟩], (run_bind_ok hrun).trans ?_⟩
      rw [hp]
      rfl

theorem nodePrefix_known {s : Session} {known : String} (h : s.cache.nodePrefix = some known) :
    nodePrefix.run m s = (.ok known, s) := by
  unfold nodePrefix
  rw [run_get_bind, h]
  rfl

/-- An unknown prefix is asked for; an answer is remembered, a failure is not. -/
theorem nodePrefix_unknown_now {s : Session} (h : s.cache.nodePrefix = none) :
    ∃ log, nodePrefix.run m s = (told m.world s.started s.context.env, { s with
      cache := { s.cache with nodePrefix := (told m.world s.started s.context.env).toOption },
      started := s.started ++ Child.launched m.world (request m.world s.context.env),
      log := log }) := by
  obtain ⟨log, hrun⟩ := askPrefix_run (m := m) s.context.env s
  refine ⟨log, ?_⟩
  unfold nodePrefix
  rw [run_get_bind, h]
  dsimp only
  rw [run_now_bind, m.now_host]
  cases ha : told m.world s.started s.context.env with
  | ok found =>
    rw [ha] at hrun
    rw [run_bind_ok hrun]
    rfl
  | error fault =>
    rw [ha] at hrun
    rw [run_bind_error hrun]
    show _ = (_, { s with cache := { s.cache with nodePrefix := none }, started := _, log := _ })
    rw [← h]

theorem nodePrefix_unknown {s : Session} (h : s.cache.nodePrefix = none) :
    ∃ log, nodePrefix.run w s = (told w s.started s.context.env, { s with
      cache := { s.cache with nodePrefix := (told w s.started s.context.env).toOption },
      started := s.started ++ Child.launched w (request w s.context.env), log := log }) :=
  nodePrefix_unknown_now h

theorem spared_nil (w : World) (known : Option String) : spared w known [] = [] := by
  unfold spared
  split <;> rfl

theorem spared_append (w : World) (known : Option String) (earlier later : List Child.Request) :
    spared w known (earlier ++ later) = spared w known earlier ++ spared w known later := by
  unfold spared
  split
  · exact List.filter_append ..
  · rfl

theorem spared_request (known : String) (env : Entries String) :
    spared w (some known) (Child.launched w (request w env)) = [] := by
  unfold Child.launched
  split
  · rfl
  · simp [spared, request]

theorem spared_other (known : Option String) {r : Child.Request}
    (h : r.command ≠ command w.host.platform) :
    spared w known (Child.launched w r) = Child.launched w r := by
  unfold Child.launched
  split
  · exact spared_nil w known
  · unfold spared
    split
    · simp [h]
    · rfl

end Npm

theorem Engine.words_ne_lookup {node : Value} {words : List String} (platform : String)
    (h : Child.words? [node, .text "-e", .text Engine.script] = some words) :
    words ≠ Npm.command platform := by
  intro e
  subst e
  cases node <;> simp [Child.words?, Npm.command] at h

/-! ## 5. The search path of children -/

theorem Entries.put_put {α : Type} (name : String) (a b : α) (entries : Entries α) :
    put name a (put name b entries) = put name a entries := by
  induction entries with
  | nil => simp [put]
  | cons e rest ih =>
    obtain ⟨n, c⟩ := e
    by_cases h : n = name
    · simp [put, h]
    · simp [put, h, ih]

/-- An environment once the search path points somewhere. -/
def SearchPath.env (base : Entries String) : SearchPath → Entries String
  | .unset => base
  | .to modulesDir => base.put "NODE_PATH" (modulesDir.getD "")

/-- Pointing the search path elsewhere leaves nothing of where it pointed before. -/
theorem SearchPath.put_env (base : Entries String) (modulesDir : Option String) :
    ∀ path : SearchPath, (path.env base).put "NODE_PATH" (modulesDir.getD "") =
      (SearchPath.to modulesDir).env base
  | .unset => rfl
  | .to _ => Entries.put_put ..

theorem SearchPath.env_nodePath (base : Entries String) (modulesDir : Option String) :
    ((SearchPath.to modulesDir).env base).get? "NODE_PATH" = some (modulesDir.getD "") :=
  Entries.get?_put_self ..

/-- Other variables are as they were. -/
theorem SearchPath.env_other (base : Entries String) {name : String} (h : name ≠ "NODE_PATH") :
    ∀ path : SearchPath, (path.env base).get? name = base.get? name
  | .unset => rfl
  | .to _ => Entries.get?_put_ne h ..

/-- The context with its search path pointed at a modules directory. -/
def Context.pointedAt (c : Context) (modulesDir : Option String) : Context :=
  if c.searchPath = .to modulesDir then c
  else { c with
    searchPath := .to modulesDir, env := c.env.put "NODE_PATH" (modulesDir.getD "") }

/-- Where the search path pointed before does not matter. -/
theorem Context.pointedAt_eq {c : Context} {base : Entries String}
    (h : c.env = c.searchPath.env base) (modulesDir : Option String) :
    c.pointedAt modulesDir = { c with
      searchPath := .to modulesDir, env := (SearchPath.to modulesDir).env base } := by
  unfold pointedAt
  split
  · rename_i hsame
    rw [← hsame, ← h]
  · rw [h, SearchPath.put_env]

theorem Package.refresh_run (modulesDir : Option String) (s : Session) :
    ∃ log, (discard (refreshSearchPath modulesDir)).run m s =
      (.ok ⟨⟩, { s with context := s.context.pointedAt modulesDir, log := log }) := by
  show ∃ log, (Function.const Bool PUnit.unit <$> refreshSearchPath modulesDir).run m s = _
  rw [run_map, Context.pointedAt]
  by_cases hsame : s.context.searchPath = .to modulesDir
  · have hrun : (refreshSearchPath modulesDir).run m s = (.ok false, s) := by
      unfold refreshSearchPath
      rw [run_context_bind, if_pos hsame]
      rfl
    refine ⟨s.log, ?_⟩
    rw [hrun, if_pos hsame]
    rfl
  · let message := "NODE_PATH set to " ++ Text.quoted (modulesDir.getD "")
    refine ⟨s.log ++ [⟨source, Log.Level.debug.number, message⟩], ?_⟩
    rw [if_neg hsame]
    unfold refreshSearchPath
    rw [run_context_bind, if_neg hsame]
    dsimp only
    rw [run_bind_ok (run_modifyContext _ _), run_bind_ok (run_tell _ _ _ _)]
    rfl

/-! ## 6. Two sessions that remember differently -/

/-- What two sessions are compared about. -/
structure Comparison where
  /-- The tools that their contexts name. -/
  tools : Value
  /-- The prefixes that may be remembered. -/
  prefixes : String → Prop
  /-- The prefix that only the first one remembers to begin with. -/
  ahead : Option String
  /-- The children that each has started to begin with. -/
  left : List Child.Request
  right : List Child.Request

/-- The sessions have contexts that `C` relates and remember nothing wrong, and they have started
    the same children, except that the first did not ask for a prefix it knew. -/
structure Tied (w : World) (k : Comparison) (C : Context → Context → Prop) (s t : Session) :
    Prop where
  contexts : C s.context t.context
  left : s.cache.Coherent w k.tools
  right : t.cache.Coherent w k.tools
  ahead : s.cache.nodePrefix = t.cache.nodePrefix.or k.ahead
  prefixes : ∀ known, t.cache.nodePrefix = some known → k.prefixes known
  started : ∃ later, t.started = k.right ++ later ∧
    s.started = k.left ++ Npm.spared w k.ahead later

section Tied

variable {k : Comparison} {C D : Context → Context → Prop}

theorem Tied.mono {s t : Session} (h : Tied w k C s t) (hCD : C s.context t.context →
    D s.context t.context) : Tied w k D s t :=
  { h with contexts := hCD h.contexts }

/-- What the first session may have known before, it knows, if there is only one prefix. -/
theorem Tied.knows_ahead {s t : Session} (h : Tied w k C s t)
    (hone : ∀ {found other}, k.prefixes found → k.prefixes other → found = other) {known : String}
    (hknown : k.ahead = some known) (hgiven : k.prefixes known) :
    s.cache.nodePrefix = some known := by
  rw [h.ahead, hknown]
  cases hown : t.cache.nodePrefix with
  | none => rfl
  | some other => rw [Option.some_or, hone (h.prefixes other hown) hgiven]

/-- What the first session knows is a prefix, if what it may have known before is one. -/
theorem Tied.given_left {s t : Session} (h : Tied w k C s t)
    (hahead : ∀ known, k.ahead = some known → k.prefixes known) {known : String}
    (hknown : s.cache.nodePrefix = some known) : k.prefixes known := by
  rw [h.ahead] at hknown
  cases hown : t.cache.nodePrefix with
  | none =>
    rw [hown, Option.none_or] at hknown
    exact hahead known hknown
  | some other =>
    rw [hown, Option.some_or] at hknown
    exact h.prefixes known (hown.trans hknown)

/-- Ends that are alike because both runs end with one result, known beforehand. -/
theorem alike_of_runs {α : Type} {E R : Session → Session → Prop} {x : Action α}
    (h : ∀ s t, R s t → ∃ result s' t',
      x.run w s = (result, s') ∧ x.run w t = (result, t') ∧ R s' t')
    (hE : ∀ s t, R s t → E s t) : Alike w E R x fun _ => R := by
  refine ⟨fun s t hst => ?_⟩
  obtain ⟨result, s', t', hs, ht, hst'⟩ := h s t hst
  rw [hs, ht]
  cases result with
  | ok a => exact ⟨rfl, hst'⟩
  | error fault => exact ⟨rfl, hE s' t' hst'⟩

variable (hCD : ∀ c d, C c d → D c d)
include hCD

theorem tied_tell (source : String) (level : Log.Level) (message : String) :
    Alike w (Tied w k D) (Tied w k C) (Action.tell source level message) fun _ => Tied w k C :=
  alike_of_runs (fun _ _ h => ⟨_, _, _, run_tell _ _ _ _, run_tell _ _ _ _, { h with }⟩)
    fun _ _ h => h.mono (hCD _ _)

theorem tied_find (start : String) (names : List String) :
    Alike w (Tied w k D) (Tied w k C) (Finder.find start names) fun _ => Tied w k C := by
  refine alike_of_runs (fun s t h => ?_) fun _ _ h => h.mono (hCD _ _)
  obtain ⟨memo, hmemo, hs⟩ := Finder.find_run h.left.finder start names
  obtain ⟨memo', hmemo', ht⟩ := Finder.find_run h.right.finder start names
  exact ⟨_, _, _, hs, ht,
    { h with left := { h.left with finder := hmemo }, right := { h.right with finder := hmemo' } }⟩

theorem tied_searches : Searches w (Tied w k D) (Tied w k C) where
  fault := fun _ _ h => h.mono (hCD _ _)
  sees := fun _ _ _ => rfl
  tell := tied_tell hCD
  find := tied_find hCD

theorem tied_bundledPath (htools : ∀ c d, C c d → c.nodeToolsDir = k.tools ∧
    d.nodeToolsDir = k.tools) :
    Alike w (Tied w k D) (Tied w k C) NodeTools.bundledPath fun _ => Tied w k C := by
  refine alike_of_runs (fun s t h => ?_) fun _ _ h => h.mono (hCD _ _)
  obtain ⟨hc, hd⟩ := htools _ _ h.contexts
  obtain ⟨memo, hmemo, hs⟩ := NodeTools.bundledPath_run (hc.symm ▸ h.left.bundledPath)
  obtain ⟨memo', hmemo', ht⟩ := NodeTools.bundledPath_run (hd.symm ▸ h.right.bundledPath)
  rw [hc] at hs hmemo
  rw [hd] at ht hmemo'
  exact ⟨_, _, _, hs, ht, { h with
    left := { h.left with bundledPath := hmemo }, right := { h.right with bundledPath := hmemo' } }⟩

/-- **Asking for the prefix**, where the one that only the first session remembers is the answer
    that the second gets. -/
theorem tied_nodePrefix (hw : w.Memoryless) (henv : ∀ c d, C c d → c.env = d.env)
    (hasked : ∀ c d found, C c d → Npm.asked w d.env = .ok found → k.prefixes found)
    (hahead : ∀ c d known, C c d → k.ahead = some known → Npm.asked w d.env = .ok known) :
    Alike w (Tied w k D) (Tied w k C) Npm.nodePrefix fun _ => Tied w k C := by
  refine alike_of_runs (fun s t h => ?_) fun _ _ h => h.mono (hCD _ _)
  cases ht : t.cache.nodePrefix with
  | some known =>
    -- The second session remembers a prefix: so does the first, and it is the same one.
    have hs : s.cache.nodePrefix = some known := by rw [h.ahead, ht, Option.some_or]
    exact ⟨_, _, _, Npm.nodePrefix_known hs, Npm.nodePrefix_known ht, h⟩
  | none =>
    obtain ⟨log, hrun⟩ := Npm.nodePrefix_unknown (w := w) ht
    rw [Npm.told_eq hw] at hrun
    obtain ⟨later, hright, hleft⟩ := h.started
    have hright' : t.started ++ Child.launched w (Npm.request w t.context.env) =
        k.right ++ (later ++ Child.launched w (Npm.request w t.context.env)) := by
      rw [hright, List.append_assoc]
    have hprefixes (known : String) (hk : (Npm.asked w t.context.env).toOption = some known) :
        k.prefixes known := hasked _ _ _ h.contexts (Except.eq_ok_of_toOption hk)
    cases hk : k.ahead with
    | none =>
      -- Neither remembers one: both ask and get one answer.
      have hs : s.cache.nodePrefix = none := by rw [h.ahead, ht, hk]; rfl
      obtain ⟨log', hrun'⟩ := Npm.nodePrefix_unknown (w := w) hs
      rw [Npm.told_eq hw, henv _ _ h.contexts] at hrun'
      refine ⟨_, _, _, hrun', hrun, {
        contexts := h.contexts, left := h.left.withPrefix _, right := h.right.withPrefix _,
        ahead := ?_, prefixes := hprefixes, started := ?_ }⟩
      · rw [hk, Option.or_none]
      · refine ⟨_, hright', ?_⟩
        rw [hk] at hleft ⊢
        rw [hleft]
        exact List.append_assoc ..
    | some known =>
      -- Only the first remembers one: the second is told the same.
      have hs : s.cache.nodePrefix = some known := by rw [h.ahead, ht, hk]; rfl
      have ha := hahead _ _ _ h.contexts hk
      rw [ha] at hrun
      refine ⟨_, _, _, Npm.nodePrefix_known hs, hrun, {
        contexts := h.contexts, left := h.left, right := h.right.withPrefix _,
        ahead := hs, prefixes := ha ▸ hprefixes, started := ⟨_, hright', ?_⟩ }⟩
      rw [hleft, Npm.spared_append, hk, Npm.spared_request, List.append_nil]

theorem tied_child (hw : w.Memoryless) (node : Value) (cwd : Option String) (env : Entries String)
    (timeout : Value) (input : String) :
    Alike w (Tied w k D) (Tied w k C) (Child.run [node, .text "-e", .text Engine.script] cwd
      (some env) timeout (some input)) fun _ => Tied w k C := by
  refine alike_of_runs (fun s t h => ?_) fun _ _ h => h.mono (hCD _ _)
  cases hwords : Child.words? [node, .text "-e", .text Engine.script] with
  | none => exact ⟨_, _, _, Child.run_other hwords .., Child.run_other hwords .., h⟩
  | some words =>
    obtain ⟨_, hs⟩ := Child.run_words hwords cwd (some env) timeout (some input) s
    obtain ⟨_, ht⟩ := Child.run_words hwords cwd (some env) timeout (some input) t
    rw [Child.reply_memoryless hw] at hs ht
    generalize hr : (⟨words, Child.directory w cwd, some env, timeout, some input⟩ :
      Child.Request) = request at hs ht
    have hne : request.command ≠ Npm.command w.host.platform := by
      rw [← hr]
      exact Engine.words_ne_lookup _ hwords
    obtain ⟨later, hright, hleft⟩ := h.started
    refine ⟨_, _, _, hs, ht, { h with started := ⟨later ++ Child.launched w request, ?_, ?_⟩ }⟩
    · show t.started ++ Child.launched w request = _
      rw [hright, List.append_assoc]
    · show s.started ++ Child.launched w request = _
      rw [hleft, Npm.spared_append, Npm.spared_other _ hne, List.append_assoc]

/-- What finding a copy of the linter needs: contexts with the comparison's tools and one
    environment, in which the package manager answers what the first session remembers. -/
theorem tied_locates (hw : w.Memoryless)
    (htools : ∀ c d, C c d → c.nodeToolsDir = k.tools ∧ d.nodeToolsDir = k.tools)
    (henv : ∀ c d, C c d → c.env = d.env)
    (hasked : ∀ c d found, C c d → Npm.asked w d.env = .ok found → k.prefixes found)
    (hahead : ∀ c d known, C c d → k.ahead = some known → Npm.asked w d.env = .ok known) :
    Locates w (Tied w k D) (Tied w k C) where
  toSearches := tied_searches hCD
  bundled := tied_bundledPath hCD htools
  nodePrefix := tied_nodePrefix hCD hw henv hasked hahead

/-- What calling an engine needs: equal contexts. -/
theorem tied_calls (hw : w.Memoryless) (heq : ∀ c d, C c d → c = d) :
    Calls w (Tied w k D) (Tied w k C) where
  toSearches := tied_searches hCD
  context := alike_of_runs
    (fun _ _ h => ⟨_, _, _, run_context _, by rw [run_context, heq _ _ h.contexts], h⟩)
    fun _ _ h => h.mono (hCD _ _)
  child := tied_child hCD hw

end Tied

end LintHost
