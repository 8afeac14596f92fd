import LintHost.Proofs.Variables

/-!
# Names in a file of variables

A text is read statement by statement, and each statement goes on where its text ends. So every name
that it sets stands in it; and as a name is read either without quotes or between them, it can be
written again, in a text of its own.

* `statement_spec`, `statementsFrom_spec`: what a statement names, and where it ends;
* `exists_written`: every name that is read can be written;
* `exists_spoiling`: for every variable that a text adds there is another text that is refused unless
  the variable is there.
-/

namespace LintHost.EnvFile

open LintHost.Text

/-! ## 1. The names in a text -/

/-- A name that may stand without quotes. -/
def IsBare (name : List Char) : Prop :=
  name.head? ≠ some '\'' ∧ ∀ c ∈ name, c ≠ '=' ∧ c ≠ '#' ∧ isBlank c = false

theorem skipInline_suffix (cs : List Char) : skipInline cs <:+ cs := List.dropWhile_suffix _

theorem skipExport_suffix (cs : List Char) : skipExport cs <:+ cs := by
  unfold skipExport
  split
  · split
    · rename_i c cs _
      exact (skipInline_suffix cs).trans (List.suffix_append ['e', 'x', 'p', 'o', 'r', 't', c] cs)
    · exact List.suffix_refl _
  · exact List.suffix_refl _

/-- What follows a name stands in the text. The name does too; it is not empty, and can be written
    without quotes or between them. -/
theorem key?_some {cs rest : List Char} {name? : Option String} (h : key? cs = some (name?, rest)) :
    rest <:+ cs ∧ ∀ name, name? = some name → name.toList ≠ [] ∧ name.toList ⊆ cs ∧
      (IsBare name.toList ∨ '\'' ∉ name.toList) := by
  unfold key? at h
  split at h
  · cases h
    exact ⟨List.suffix_refl _, nofun⟩
  · rename_i cs
    dsimp only at h
    split at h
    · cases h
    · rename_i hname
      obtain ⟨hempty, -⟩ := not_or.mp hname
      cases h
      refine ⟨(List.drop_suffix _ cs).trans (List.suffix_cons _ _), fun name hname => ?_⟩
      cases hname
      rw [String.toList_ofList]
      refine ⟨fun hnil => hempty (by rw [hnil]; rfl), fun c hc => ?_, .inr fun hc => ?_⟩
      · exact List.mem_cons_of_mem _ ((List.takeWhile_sublist _).subset hc)
      · simpa using List.mem_takeWhile_imp hc
  · rename_i hcomment hquote
    dsimp only at h
    split at h
    · cases h
    · rename_i hempty
      cases h
      refine ⟨List.drop_suffix _ cs, fun name hname => ?_⟩
      cases hname
      rw [String.toList_ofList]
      refine ⟨fun hnil => hempty (by rw [hnil]; rfl), (List.takeWhile_sublist _).subset,
        .inl ⟨fun hhead => ?_, fun c hc => ?_⟩⟩
      · cases cs with
        | nil => cases hhead
        | cons c cs =>
          rw [List.takeWhile_cons] at hhead
          split at hhead
          · obtain rfl := Option.some.inj hhead
            exact hquote cs rfl
          · cases hhead
      · simpa using List.mem_takeWhile_imp hc

theorem quotedPart?_suffix {quote : Char} {cs part rest : List Char}
    (h : quotedPart? quote cs = some (part, rest)) : rest <:+ cs := by
  fun_induction quotedPart? quote cs generalizing part rest with
  | case1 => cases h
  | case2 c cs ih =>
    obtain ⟨⟨part', rest'⟩, hrest, heq⟩ := Option.map_eq_some_iff.mp h
    cases heq
    exact (ih hrest).trans (List.suffix_append ['\\', c] cs)
  | case3 cs =>
    cases h
    exact List.suffix_cons _ _
  | case4 c cs _ _ ih =>
    obtain ⟨⟨part', rest'⟩, hrest, heq⟩ := Option.map_eq_some_iff.mp h
    cases heq
    exact (ih hrest).trans (List.suffix_cons _ _)

theorem value?_suffix {cs value rest : List Char} (h : value? cs = some (value, rest)) :
    rest <:+ cs := by
  have hinline := skipInline_suffix cs
  unfold value? at h
  split at h
  · rename_i cs' heq
    obtain ⟨⟨part, rest'⟩, hrest, hpart⟩ := Option.map_eq_some_iff.mp h
    cases hpart
    rw [heq] at hinline
    exact ((quotedPart?_suffix hrest).trans (List.suffix_cons _ _)).trans hinline
  · rename_i cs' heq
    obtain ⟨⟨part, rest'⟩, hrest, hpart⟩ := Option.map_eq_some_iff.mp h
    cases hpart
    rw [heq] at hinline
    exact ((quotedPart?_suffix hrest).trans (List.suffix_cons _ _)).trans hinline
  · cases h
    exact List.drop_suffix _ cs

theorem endOfLine?_suffix {cs rest : List Char} (h : endOfLine? cs = some rest) : rest <:+ cs := by
  have hinline := skipInline_suffix cs
  unfold endOfLine? at h
  extract_lets line at h
  have hline : line <:+ cs := by
    unfold line
    split
    · rename_i comment heq
      rw [heq] at hinline
      exact ((List.dropWhile_suffix _).trans (List.suffix_cons _ _)).trans hinline
    · exact hinline
  clear_value line
  split at h
  · cases h
    exact List.nil_suffix
  · cases h
    exact (List.suffix_append ['\r', '\n'] _).trans hline
  · split at h
    · cases h
      exact (List.suffix_cons _ _).trans hline
    · cases h

theorem dropLine_suffix (cs : List Char) : dropLine cs <:+ cs := by
  have hline := List.dropWhile_suffix (l := cs) (!isLineEnd ·)
  unfold dropLine
  split
  · rename_i heq
    rw [heq] at hline
    exact (List.suffix_cons _ _).trans hline
  · exact List.nil_suffix

theorem finish_suffix (name value : Option String) (cs : List Char) :
    (finish name value cs).rest <:+ cs := by
  unfold finish
  split
  · exact endOfLine?_suffix ‹_›
  · exact dropLine_suffix cs

/-- Where a statement begins after the blanks before it. -/
abbrev begun (cs : List Char) : List Char := skipExport (cs.dropWhile isBlank)

theorem begun_suffix (cs : List Char) : begun cs <:+ cs :=
  (skipExport_suffix _).trans (List.dropWhile_suffix _)

/-- A statement goes on where its text ends, and its name is one that was read. -/
theorem statement_spec (cs : List Char) :
    (statement cs).rest <:+ cs ∧ ∀ name value rest, statement cs = .setting (some name) value rest →
      ∃ behind, key? (begun cs) = some (some name, behind) := by
  have hbegun := begun_suffix cs
  have hfinish {name : Option String} {behind : List Char}
      (hkey : key? (begun cs) = some (name, behind)) (value : Option String) {rest : List Char} :
      ∀ name' value' rest', finish name value rest = .setting (some name') value' rest' →
        ∃ behind, key? (begun cs) = some (some name', behind) := by
    intro name' value' rest' h
    unfold finish at h
    split at h
    · cases h
      exact ⟨behind, hkey⟩
    · cases h
  unfold statement
  dsimp only
  split
  · exact ⟨List.nil_suffix, nofun⟩
  · split
    · exact ⟨(dropLine_suffix _).trans hbegun, nofun⟩
    · rename_i name behind hkey
      have hbehind := ((skipInline_suffix behind).trans (key?_some hkey).1).trans hbegun
      split
      · rename_i rest heq
        rw [heq] at hbehind
        have hrest := (List.suffix_cons _ _).trans hbehind
        split
        · exact ⟨(dropLine_suffix _).trans hrest, nofun⟩
        · rename_i value rest' hvalue
          exact ⟨((finish_suffix _ _ _).trans (value?_suffix hvalue)).trans hrest, hfinish hkey _⟩
      · exact ⟨(finish_suffix _ _ _).trans hbehind, hfinish hkey _⟩

/-- A name that a text sets stands in it, and can be written without quotes or between them. -/
theorem statementsFrom_spec (fuel line : Nat) (cs : List Char) :
    ∀ setting ∈ (statementsFrom fuel line cs).1, setting.1.toList ≠ [] ∧ setting.1.toList ⊆ cs ∧
      (IsBare setting.1.toList ∨ '\'' ∉ setting.1.toList) := by
  induction fuel generalizing line cs with
  | zero => nofun
  | succ fuel ih =>
    obtain ⟨hrest, hname⟩ := statement_spec cs
    intro setting hsetting
    unfold statementsFrom at hsetting
    dsimp only at hsetting
    split at hsetting
    · cases hsetting
    · have hlater (next : Nat) (h : setting ∈ (statementsFrom fuel next (statement cs).rest).1) :
          setting.1.toList ≠ [] ∧ setting.1.toList ⊆ cs ∧
            (IsBare setting.1.toList ∨ '\'' ∉ setting.1.toList) := by
        obtain ⟨hempty, hsub, hwritten⟩ := ih next _ setting h
        exact ⟨hempty, fun c hc => hrest.subset (hsub hc), hwritten⟩
      split at hsetting
      · rename_i name value rest heq
        rcases List.mem_cons.mp hsetting with rfl | hsetting
        · obtain ⟨behind, hkey⟩ := hname _ _ _ heq
          obtain ⟨hempty, hsub, hwritten⟩ := (key?_some hkey).2 _ rfl
          exact ⟨hempty, fun c hc => (begun_suffix cs).subset (hsub hc), hwritten⟩
        · exact hlater _ hsetting
      · exact hlater _ hsetting
      · exact hlater _ hsetting

/-! ## 2. Writing a name -/

/-- A value that no environment can hold. -/
def unholdable : String := "\x00"

/-- A line that sets a name to it. -/
def spoiledLine (written : List Char) : List Char := '\n' :: written ++ '=' :: unholdable.toList

theorem skipExport_eq_self {cs : List Char} (h : ∀ c, cs[6]? = some c → isInlineBlank c = false) :
    skipExport cs = cs := by
  unfold skipExport
  split
  · rw [if_neg (Bool.eq_false_iff.mp (h _ rfl))]
  · rfl

theorem value?_unholdable : value? unholdable.toList = some (unholdable.toList, []) := by
  decide

/-- A name that is written so is read there. -/
structure Written (name : String) (written : List Char) : Prop where
  begun : ∃ c cs, written = c :: cs ∧ isBlank c = false
  export_eq : skipExport (written ++ '=' :: unholdable.toList) = written ++ '=' :: unholdable.toList
  key : key? (written ++ '=' :: unholdable.toList) = some (some name, '=' :: unholdable.toList)
  unbroken : '\r' ∉ written

theorem isBlank_unholdable : ∀ d ∈ '=' :: unholdable.toList, isBlank d = false := by
  have hall : ('=' :: unholdable.toList).all (fun d => !isBlank d) = true := by decide
  exact fun d hd => by simpa using List.all_eq_true.mp hall d hd

/-- A name that may stand without quotes is written as it is. -/
theorem IsBare.written {name : String} (h : IsBare name.toList) (hempty : name.toList ≠ [])
    (hreturn : '\r' ∉ name.toList) : Written name name.toList := by
  obtain ⟨hquote, hbare⟩ := h
  obtain ⟨c, cs, hcs⟩ := List.exists_cons_of_ne_nil hempty
  have hc : c ≠ '=' ∧ c ≠ '#' ∧ isBlank c = false := hbare c (by simp [hcs])
  refine ⟨⟨c, cs, hcs, hc.2.2⟩, skipExport_eq_self fun d hd => ?_, ?_, hreturn⟩
  · -- what stands there is of the name, the equals sign or the value: none of them is blank
    have hblank : isBlank d = false := (List.mem_append.mp (List.mem_of_getElem? hd)).elim
      (fun h => (hbare d h).2.2) (isBlank_unholdable d)
    simp [isInlineBlank, hblank]
  · have htaken : (name.toList ++ '=' :: unholdable.toList).takeWhile
        (fun c => c ≠ '=' ∧ c ≠ '#' ∧ !isBlank c) = name.toList := by
      rw [List.takeWhile_append_of_pos fun d hd => by simpa using hbare d hd]
      simp
    unfold key?
    split
    · rename_i heq
      rw [hcs] at heq
      exact absurd (List.cons.inj heq).1 hc.2.1
    · rename_i heq
      rw [hcs] at heq hquote
      exact absurd (congrArg some (List.cons.inj heq).1) hquote
    · dsimp only
      rw [htaken, if_neg (by simp [hempty]), List.drop_left, String.ofList_toList]

/-- A name without a quote is written between quotes. -/
theorem written_quoted {name : String} (hquote : '\'' ∉ name.toList) (hempty : name.toList ≠ [])
    (hreturn : '\r' ∉ name.toList) : Written name ('\'' :: name.toList ++ ['\'']) := by
  have htaken : (name.toList ++ '\'' :: '=' :: unholdable.toList).takeWhile (· ≠ '\'') =
      name.toList := by
    rw [List.takeWhile_append_of_pos fun d hd => by
      simpa using fun h : d = '\'' => hquote (h ▸ hd)]
    simp
  have happend : '\'' :: name.toList ++ ['\''] ++ '=' :: unholdable.toList =
      '\'' :: (name.toList ++ '\'' :: '=' :: unholdable.toList) := by simp
  refine ⟨⟨'\'', _, rfl, by decide⟩, rfl, ?_, by simp [hreturn]⟩
  rw [happend]
  unfold key?
  split
  · rename_i heq
    exact absurd (List.cons.inj heq).1 (by decide)
  · rename_i heq
    obtain ⟨-, rfl⟩ := List.cons.inj heq
    dsimp only
    rw [htaken, if_neg (by simp [hempty]), String.ofList_toList, ← List.drop_drop, List.drop_left]
    rfl
  · rename_i hquote'
    exact absurd rfl (hquote' _)

/-- Every name that a text can set can be written. -/
theorem exists_written {name : String} (hempty : name.toList ≠ [])
    (hwritten : IsBare name.toList ∨ '\'' ∉ name.toList) (hreturn : '\r' ∉ name.toList) :
    ∃ written, Written name written := by
  rcases hwritten with hbare | hquote
  · exact ⟨_, hbare.written hempty hreturn⟩
  · exact ⟨_, written_quoted hquote hempty hreturn⟩

/-- A line that sets a name to this value. -/
theorem statement_spoiledLine {written : List Char} {name : String} (h : Written name written) :
    statement (spoiledLine written) = .setting (some name) (some unholdable) [] := by
  obtain ⟨c, cs, rfl, hc⟩ := h.begun
  have hbegin : (spoiledLine (c :: cs)).dropWhile isBlank =
      (c :: cs) ++ '=' :: unholdable.toList := by
    simp [spoiledLine, hc, show isBlank '\n' = true by decide]
  have hequals : skipInline ('=' :: unholdable.toList) = '=' :: unholdable.toList := by decide
  unfold statement
  rw [hbegin]
  rw [if_neg (by simp), h.export_eq]
  dsimp only
  rw [h.key]
  dsimp only
  rw [hequals]
  simp only [value?_unholdable, String.ofList_toList]
  rfl

/-- What a line sets that sets a name to this value. -/
theorem statements_spoiledLine {written : List Char} {name : String} (h : Written name written) :
    statements (String.ofList (spoiledLine written)) = ([(name, some unholdable)], []) := by
  have hmark : skipMark (spoiledLine written) = spoiledLine written := rfl
  have hend (line : Nat) : statementsFrom (spoiledLine written).length line [] = ([], []) := rfl
  unfold statements
  rw [String.toList_ofList, hmark]
  dsimp only
  unfold statementsFrom
  dsimp only
  rw [if_neg (by simp [spoiledLine]), statement_spoiledLine h]
  simp only [Statement.rest, hend]

/-! ## 3. A variable that is refused -/

theorem mem_resolve {env : Entries String} {settings : List (String × Option String)}
    {name : String} (h : name ∈ (resolve env settings).names) :
    ∃ setting ∈ settings, setting.1 = name := by
  unfold resolve at h
  have hnone : name ∉ Entries.names ([] : Entries (Option String)) := List.not_mem_nil
  revert h hnone
  generalize ([] : Entries (Option String)) = start
  intro h hnone
  induction settings generalizing start with
  | nil => exact absurd h hnone
  | cons setting settings ih =>
    by_cases hname : setting.1 = name
    · exact ⟨setting, List.mem_cons_self, hname⟩
    · have hput (value : Option String) : name ∉ (Entries.put setting.1 value start).names := by
        intro hmem
        rcases Entries.mem_names_put.mp hmem with heq | hold
        · exact hname heq.symm
        · exact hnone hold
      obtain ⟨later, hlater, heq⟩ := ih _ h (hput _)
      exact ⟨later, List.mem_cons_of_mem _ hlater, heq⟩

/-- What a text adds is lacked before, and a statement of the text sets it. -/
theorem mem_fresh {env : Entries String} {s name value : String} (h : (name, value) ∈ fresh env s) :
    env.has name = false ∧ ∃ setting ∈ (statements s).1, setting.1 = name := by
  obtain ⟨⟨other, value?⟩, hresolved, hlacked⟩ := List.mem_filterMap.mp h
  unfold lacked? at hlacked
  dsimp only at hlacked
  split at hlacked
  · cases hlacked
  · rename_i hlacks
    obtain ⟨v, rfl, heq⟩ := Option.map_eq_some_iff.mp hlacked
    cases heq
    exact ⟨Bool.eq_false_iff.mpr hlacks, mem_resolve (List.mem_map_of_mem hresolved)⟩

theorem added_unholdable {text name : String}
    (h : statements text = ([(name, some unholdable)], [])) (env : Entries String) :
    added env text = (env, if env.has name then none else some .embeddedNull) := by
  have hplain (look : String → Option String) : interpolate look unholdable = unholdable := rfl
  have hnull : unholdable.toList.contains '\x00' = true := by decide
  have hrefused : refusal? name unholdable = some .embeddedNull := if_pos (.inr hnull)
  have hresolve : resolve env [(name, some unholdable)] = [(name, some unholdable)] := by
    simp [resolve, Entries.put, hplain]
  unfold added
  rw [h, hresolve]
  unfold extend
  rw [hrefused]
  split
  · rfl
  · rfl

/-- **For every variable that a text adds** there is a text that is refused unless it is there: it
    sets just that variable, to a value that no environment can hold. -/
theorem exists_spoiling {env : Entries String} {s name value : String} (hreturn : '\r' ∉ s.toList)
    (h : (name, value) ∈ fresh env s) :
    ∃ text : String, '\r' ∉ text.toList ∧ ∀ env : Entries String,
      added env text = (env, if env.has name then none else some .embeddedNull) := by
  obtain ⟨-, ⟨name, value?⟩, hsetting, rfl⟩ := mem_fresh h
  obtain ⟨hempty, hsub, hwritten⟩ := statementsFrom_spec _ _ _ _ hsetting
  have hmark : skipMark s.toList ⊆ s.toList := by
    unfold skipMark
    split
    · rename_i cs heq
      rw [heq]
      exact List.subset_cons_self _ _
    · exact List.Subset.refl _
  obtain ⟨written, hname⟩ := exists_written hempty hwritten fun hmem => hreturn (hmark (hsub hmem))
  refine ⟨String.ofList (spoiledLine written), ?_, added_unholdable (statements_spoiledLine hname)⟩
  have hrest : '\r' ∉ '=' :: unholdable.toList := by decide
  rw [String.toList_ofList]
  simp [spoiledLine, hname.unbroken, hrest]

end LintHost.EnvFile
