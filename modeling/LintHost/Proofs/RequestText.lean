import LintHost.Proofs.DebugJob
import LintHost.Proofs.FileText

/-!
# The text of a request

An engine is asked by a text that its child finds on its input. The text to lint stands in it with
whatever it holds: quotes, backslashes and controls are escaped, and what lies beyond ASCII by one
UTF-16 unit or by two. The child reads what was asked for all the same.

* `Engine.started_one_iff`: the child that a call starts;
* `Engine.requestOf_tidy`: no name comes twice in a request;
* `Engine.child_input`: the input of a child is read as its request;
* `Engine.request_comes_back`: the input is read as the request, and is one line of printable ASCII.
-/

namespace LintHost

open LintHost.Action

namespace Json

theorem tidy_texts (texts : List String) : (ofTexts texts).Tidy := by
  refine .list fun j hj => ?_
  obtain ⟨s, -, rfl⟩ := List.mem_map.mp hj
  exact .text s

theorem tidy_ofText? (given : Option String) : (ofText? given).Tidy := by
  cases given with
  | none => exact .null
  | some s => exact .text s

end Json

namespace Engine

variable {w : World} {s : Session} {engine : Engine} {mode : Mode} {text : String}
  {file : Option String} {r : Child.Request}

/-! ## 1. The child of a call, and its input -/

theorem started_one_iff : ((engine.call mode text file).run w s).2.started = s.started ++ [r] ↔
    engine.child w s.context mode text file = .ok r := by
  rw [call_started, List.append_cancel_left_eq]
  cases engine.child w s.context mode text file with
  | error fault => exact iff_of_false nofun nofun
  | ok r' => simp [Except.toOption]

theorem Options.optional_spec (name : String) (given : Option String) :
    (Entries.names (optional name given)).Sublist [name] ∧
      ∀ e ∈ optional name given, e.2.Tidy := by
  unfold optional
  split
  · exact ⟨List.nil_sublist _, nofun⟩
  · exact ⟨List.nil_sublist _, nofun⟩
  · rename_i s _
    refine ⟨List.Sublist.refl _, fun e he => ?_⟩
    obtain rfl := List.mem_singleton.mp he
    exact .text s

/-- No name comes twice in the options of a request, if none does in the rules. -/
theorem Options.request_tidy {options : Options} (h : (Json.object options.rules).Tidy) :
    options.request.Tidy := by
  obtain ⟨hignores, hignore⟩ := optional_spec "ignorePath" options.ignorePath
  obtain ⟨hconfigs, hconfig⟩ := optional_spec "configFile" options.configFile
  have htexts := Json.tidy_texts options.rulePaths
  have hnames : ["rules", "ignore", "fix", "rulePaths", "ignorePath", "configFile"].Nodup := by
    decide
  refine .object ?_ (List.forall_mem_append.mpr ⟨List.forall_mem_append.mpr ⟨?_, hignore⟩, hconfig⟩)
  · have hsublist := ((List.Sublist.refl ["rules", "ignore", "fix", "rulePaths"]).append
      hignores).append hconfigs
    simp only [Entries.names, List.map_append]
    exact hnames.sublist hsublist
  · have hbool := Json.Tidy.bool
    simp [h, htexts, hbool]

theorem requestOf_tidy {mode : Mode} (h : (Json.object engine.options.rules).Tidy) :
    (engine.requestOf mode text file).Tidy := by
  have hoptions := Options.request_tidy h
  have hfile := Json.tidy_ofText? file
  have htext := Json.Tidy.text
  have hnames : ["eslintPath", "mode", "options", "text", "filePath"].Nodup := by decide
  exact .object hnames (by simp [hoptions, hfile, htext])

/-- **A child reads its request**, if no rule is there twice. -/
theorem child_input {context : Context} (h : engine.child w context mode text file = .ok r)
    (hrules : (Json.object engine.options.rules).Tidy) : ∃ input, r.input = some input ∧
      Json.write Json.wire (engine.requestOf mode text file) = .ok input ∧
      Json.read input = .ok (engine.requestOf mode text file) := by
  obtain ⟨node, input, -, -, hinput, rfl⟩ := child_eq_ok.mp h
  exact ⟨input, rfl, hinput, Json.read_write hinput (requestOf_tidy hrules)⟩

/-! ## 2. The request -/

/-- **What is asked comes back.** For every engine whose rules name nothing twice and every call of
    it, in every session and world: the call starts one child if the engine can be asked at all, and
    none otherwise. The text on the input of that child is read as the copy's path, the mode, the
    engine's options, the text and the file of this very call and as nothing else, and it is one
    line of printable ASCII. -/
theorem request_comes_back (hrules : (Json.object engine.options.rules).Tidy) (mode : Mode)
    (text : String) (file : Option String) (w : World) (s : Session) :
    let children := ((engine.call mode text file).run w s).2.started
    (engine.Sendable w s.context ↔ ∃ r, children = s.started ++ [r]) ∧
    (¬engine.Sendable w s.context → children = s.started) ∧
    ∀ r, children = s.started ++ [r] → ∃ input, r.input = some input ∧
      Json.read input = .ok (.object [("eslintPath", .text engine.package.path),
        ("mode", .text mode.name), ("options", engine.options.request), ("text", .text text),
        ("filePath", .ofText? file)]) ∧
      ∀ c ∈ input.toList, ' ' ≤ c ∧ c ≤ '~' := by
  intro children
  have hone : engine.Sendable w s.context ↔ ∃ r, children = s.started ++ [r] :=
    child_isOk_iff.symm.trans (exists_congr fun r => started_one_iff.symm)
  refine ⟨hone, fun hunsent => ?_, fun r hr => ?_⟩
  · cases hchild : engine.child w s.context mode text file with
    | error fault =>
      obtain ⟨log, hrun⟩ := call_refused (m := w) hchild
      exact congrArg (fun ended => ended.2.started) hrun
    | ok r => exact absurd (child_isOk_iff.mp ⟨r, hchild⟩) hunsent
  · have hchild := started_one_iff.mp hr
    obtain ⟨input, hinput, hwritten, hread⟩ := child_input hchild hrules
    refine ⟨input, hinput, hread, ?_⟩
    rw [Json.text_of_write hwritten, String.toList_ofList]
    exact Json.plain_wire 0 _

end Engine

/-! ## 3. A text that has to be escaped throughout -/

/-- An engine whose rules go deep, for a copy that lies below a name beyond ASCII. -/
def Engine.deepRuled : Engine :=
  { number := 0
    package := ⟨⟨"/proj\u2028\u00e9t/eslint", .localProject⟩, "eslint", none, "index.js"⟩
    options := { Engine.Options.standard with
      rules := [("a\"b", .list [.text "error",
        .object [("\u007f", .list [.text "\ufeff", .null])]])] }
    cwd := none
    env := [] }

/-- A line end, a quote, a backslash, controls, a line separator and characters that are escaped by
    two units. -/
def Text.awkward : String := "\r\n\"\\\x00\x1b\u2028𝒳😀"

/-- Such a text is sent by such an engine, and is read as it was. -/
theorem awkward_text_comes_back : (Json.object Engine.deepRuled.options.rules).Tidy ∧
    ∃ r input, ((Engine.deepRuled.call .lint Text.awkward (some "😀.js")).run World.plain
      (.start (.ofEnv []))).2.started = [r] ∧ r.input = some input ∧
    Json.read input = .ok (.object [("eslintPath", .text "/proj\u2028\u00e9t/eslint"),
      ("mode", .text "lint"), ("options", Engine.deepRuled.options.request),
      ("text", .text Text.awkward), ("filePath", .text "😀.js")]) := by
  have hrules : (Json.object Engine.deepRuled.options.rules).Tidy := by
    refine .object (by decide) fun e he => ?_
    obtain rfl := List.mem_singleton.mp he
    refine .list (List.forall_mem_cons.mpr ⟨.text _, fun j hj => ?_⟩)
    obtain rfl := List.mem_singleton.mp hj
    refine .object (by decide) fun e he => ?_
    obtain rfl := List.mem_singleton.mp he
    exact .list (List.forall_mem_cons.mpr ⟨.text _, List.forall_mem_singleton.mpr .null⟩)
  obtain ⟨hone, -, hread⟩ := Engine.request_comes_back hrules .lint Text.awkward
    (some "😀.js") .plain (.start (.ofEnv []))
  obtain ⟨r, hr⟩ := hone.mp ⟨⟨"node", rfl, Engine.fits_rehearsed rfl _ _⟩, rfl, by decide⟩
  obtain ⟨input, hinput, hback, -⟩ := hread r hr
  exact ⟨hrules, r, input, hr, hinput, hback⟩

end LintHost
