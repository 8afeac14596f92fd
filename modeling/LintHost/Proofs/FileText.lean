import LintHost.Proofs.JsonText

/-!
# Text in files

Files are read with their line ends unified and written as they are. So a text comes back from a
file exactly if it has no carriage return, and JSON text has none: it escapes those of its strings.

* `Text.decode?_eq_some`: strict decoding undoes encoding;
* `Text.unifyNewlines_eq_self`, `Text.ofFile?_encode`: which texts come back from a file;
* `Json.inked_render`, `Json.printed_render`: what written JSON is made of; it has no controls but
  line feeds;
* `Json.plain_wire`: on the wire it is one line of printable ASCII;
* `Json.ofFile?_write`: it comes back from a file;
* `World.loadJson_eq_some`: the values that are loaded from files.
-/

namespace LintHost

/-! ## 1. Line ends -/

namespace Text

/-- Strict decoding undoes encoding, and nothing else decodes to a text. -/
theorem decode?_eq_some {bytes : ByteArray} {s : String} :
    decode? bytes = some s ↔ bytes = encode s := by
  unfold decode? encode String.fromUTF8?
  constructor
  · intro h
    split at h
    · cases h
      rfl
    · cases h
  · rintro rfl
    rw [String.toUTF8_eq_toByteArray, dif_pos s.isValidUTF8]
    rfl

/-- Unified line ends are no carriage returns. -/
theorem not_mem_unifyNewlines (cs : List Char) : '\r' ∉ unifyNewlines cs := by
  fun_induction unifyNewlines cs with
  | case1 => exact List.not_mem_nil
  | case2 cs ih => exact fun h => ih (List.mem_of_ne_of_mem (by decide) h)
  | case3 cs _ ih => exact fun h => ih (List.mem_of_ne_of_mem (by decide) h)
  | case4 c cs _ hc ih =>
    intro h
    rcases List.mem_cons.mp h with hreturn | h
    · exact hc hreturn.symm
    · exact ih h

/-- **Unifying line ends changes every text with a carriage return**, and no other. -/
theorem unifyNewlines_eq_self {cs : List Char} : unifyNewlines cs = cs ↔ '\r' ∉ cs := by
  constructor
  · intro h
    rw [← h]
    exact not_mem_unifyNewlines cs
  · intro h
    fun_induction unifyNewlines cs with
    | case1 => rfl
    | case2 cs ih => exact absurd List.mem_cons_self h
    | case3 cs _ ih => exact absurd List.mem_cons_self h
    | case4 c cs _ hc ih => rw [ih fun hcs => h (List.mem_cons_of_mem c hcs)]

theorem ofFile?_eq_some {bytes : ByteArray} {s : String} : ofFile? bytes = some s ↔
    ∃ spelt, bytes = encode spelt ∧ s = String.ofList (unifyNewlines spelt.toList) := by
  simp only [ofFile?, Option.map_eq_some_iff, decode?_eq_some, eq_comm (a := s)]

/-- A text comes back from a file unless it has a carriage return. -/
theorem ofFile?_encode {s : String} : ofFile? (encode s) = some s ↔ '\r' ∉ s.toList := by
  rw [ofFile?, decode?_eq_some.mpr rfl, Option.map_some, Option.some_inj,
    ← String.toList_inj, String.toList_ofList, unifyNewlines_eq_self]

end Text

/-! ## 2. What JSON text is made of -/

namespace Json

open LintHost.Text LintHost.Binary64

/-- Text in printable ASCII. -/
def Plain (cs : List Char) : Prop := ∀ c ∈ cs, ' ' ≤ c ∧ c ≤ '~'

instance (cs : List Char) : Decidable (Plain cs) := List.decidableBAll ..

theorem plain_cons {c : Char} {cs : List Char} :
    Plain (c :: cs) ↔ (' ' ≤ c ∧ c ≤ '~') ∧ Plain cs := List.forall_mem_cons

theorem plain_append {cs ds : List Char} : Plain (cs ++ ds) ↔ Plain cs ∧ Plain ds :=
  List.forall_mem_append

theorem plain_of_isDigit {cs : List Char} (h : ∀ c ∈ cs, c.isDigit = true) : Plain cs := by
  intro c hc
  have hdigit := h c hc
  simp only [Char.isDigit, Bool.and_eq_true, decide_eq_true_eq] at hdigit
  exact ⟨Char.le_trans (show ' ' ≤ '0' by decide) hdigit.1,
    Char.le_trans hdigit.2 (show '9' ≤ '~' by decide)⟩

theorem plain_toDigits (n : Nat) : Plain (Nat.toDigits 10 n) :=
  plain_of_isDigit Number.isDigit_toDigits

theorem plain_zeros (n : Nat) : Plain (List.replicate n '0') := by
  intro c hc
  rw [List.eq_of_mem_replicate hc]
  decide

theorem plain_sign (negative : Bool) : Plain (signText negative) := by
  cases negative <;> decide

theorem plain_exponentText (layout : Layout) (e : Int) : Plain (exponentText layout e) := by
  have hdigits : Plain (padLeft layout.exponentWidth (Nat.toDigits 10 e.natAbs)) :=
    plain_append.mpr ⟨plain_zeros _, plain_toDigits _⟩
  refine plain_cons.mpr ⟨by decide, plain_cons.mpr ⟨?_, hdigits⟩⟩
  split <;> decide

theorem plain_positional {ds : List Char} (hds : Plain ds) (p : Int) :
    Plain (positional floatLayout ds p) := by
  unfold positional
  split
  · exact plain_append.mpr ⟨plain_cons.mpr ⟨by decide, plain_cons.mpr ⟨by decide,
      plain_zeros _⟩⟩, hds⟩
  split
  · exact plain_append.mpr ⟨plain_append.mpr ⟨hds, plain_zeros _⟩, by decide⟩
  · exact plain_append.mpr ⟨fun c hc => hds c (List.mem_of_mem_take hc),
      plain_cons.mpr ⟨by decide, fun c hc => hds c (List.mem_of_mem_drop hc)⟩⟩

theorem plain_scientific {ds : List Char} (hds : Plain ds) (p : Int) :
    Plain (scientific floatLayout ds p) := by
  have hexponent := plain_exponentText floatLayout (p - 1)
  match ds with
  | [] => exact hds
  | [d] => exact plain_cons.mpr ⟨(plain_cons.mp hds).1, hexponent⟩
  | d :: e :: rest =>
    obtain ⟨hd, hrest⟩ := plain_cons.mp hds
    exact plain_append.mpr
      ⟨plain_cons.mpr ⟨hd, plain_cons.mpr ⟨by decide, hrest⟩⟩, hexponent⟩

theorem plain_floatText (x : Binary64) : Plain (floatLayout.render x) := by
  cases x with
  | nan => decide
  | infinite negative => cases negative <;> decide
  | finite negative rank =>
    refine plain_append.mpr ⟨plain_sign negative, ?_⟩
    split
    · decide
    · have hdigits := plain_toDigits (shortest rank.val).digits
      unfold Layout.write
      dsimp only
      split
      · exact plain_positional hdigits _
      · exact plain_scientific hdigits _

theorem plain_unitEscape {n : Nat} (h : n < 65536) : Plain (unitEscape n) := by
  have hdigit : ∀ d < 16, ' ' ≤ Nat.digitChar d ∧ Nat.digitChar d ≤ '~' := by decide
  rw [unitEscape, hex_four h]
  simp only [plain_cons]
  exact ⟨by decide, by decide, hdigit _ (by omega), hdigit _ (by omega), hdigit _ (by omega),
    hdigit _ (by omega), fun _ h => absurd h List.not_mem_nil⟩

theorem plain_escape (c : Char) : Plain (escape c) := by
  have hc := toNat_lt c
  unfold escape
  dsimp only
  split
  · exact plain_unitEscape ‹_›
  · exact plain_append.mpr ⟨plain_unitEscape (by omega), plain_unitEscape (by omega)⟩

/-- What JSON text is made of in a style: besides printable ASCII, line feeds where items stand on
    lines of their own, and whatever is no control where nothing beyond ASCII is escaped. -/
def Inked (style : Style) (cs : List Char) : Prop :=
  ∀ c ∈ cs, (' ' ≤ c ∧ c ≤ '~') ∨ (c = '\n' ∧ style.lines = true) ∨ (' ' ≤ c ∧ style.ascii = false)

theorem inked_cons {style : Style} {c : Char} {cs : List Char} :
    Inked style (c :: cs) ↔ ((' ' ≤ c ∧ c ≤ '~') ∨ (c = '\n' ∧ style.lines = true) ∨
      (' ' ≤ c ∧ style.ascii = false)) ∧ Inked style cs := List.forall_mem_cons

theorem inked_append {style : Style} {cs ds : List Char} :
    Inked style (cs ++ ds) ↔ Inked style cs ∧ Inked style ds := List.forall_mem_append

theorem Plain.inked {cs : List Char} (h : Plain cs) (style : Style) : Inked style cs :=
  fun c hc => .inl (h c hc)

/-- A character is escaped if it is a control, and beyond ASCII if the style says so. -/
theorem inked_stringChar (style : Style) (c : Char) :
    Inked style (stringChar style.ascii c) := by
  unfold stringChar
  split <;> first | exact Plain.inked (by decide) style | split
  · exact (plain_escape _).inked style
  · rename_i hc
    have hprinted : ' ' ≤ c := Nat.le_of_not_lt fun h => hc (.inl h)
    refine inked_cons.mpr ⟨?_, nofun⟩
    cases hascii : style.ascii with
    | false => exact .inr (.inr ⟨hprinted, rfl⟩)
    | true => exact .inl ⟨hprinted, Nat.le_of_not_lt fun h => hc (.inr ⟨hascii, h⟩)⟩

theorem inked_stringText (style : Style) (s : String) :
    Inked style (stringText style.ascii s) := by
  have hchars : Inked style (s.toList.flatMap (stringChar style.ascii)) := by
    intro d hd
    obtain ⟨c, -, hd⟩ := List.mem_flatMap.mp hd
    exact inked_stringChar style c d hd
  have hquote : Plain ['"'] := by decide
  exact inked_append.mpr ⟨inked_append.mpr ⟨hquote.inked style, hchars⟩, hquote.inked style⟩

theorem inked_newline (style : Style) (level : Nat) : Inked style (newline style level) := by
  unfold newline
  split
  · rename_i hlines
    refine inked_cons.mpr ⟨.inr (.inl ⟨rfl, hlines⟩), fun c hc => .inl ?_⟩
    rw [List.eq_of_mem_replicate hc]
    decide
  · exact nofun

theorem inked_separator (style : Style) (level : Nat) : Inked style (separator style level) := by
  unfold separator
  split
  · exact inked_cons.mpr ⟨.inl (by decide), inked_newline style level⟩
  · exact Plain.inked (by decide) style

mutual

/-- **What written JSON is made of.** -/
theorem inked_render (style : Style) (level : Nat) :
    (j : Json) → Inked style (render style level j)
  | .null => by
    rw [render]
    exact Plain.inked (by decide) style
  | .bool b => by
    rw [render]
    cases b <;> exact Plain.inked (by decide) style
  | .int n => by
    rw [render, intText_eq]
    exact (plain_append.mpr ⟨plain_sign _, plain_toDigits _⟩).inked style
  | .float x => by
    rw [render]
    exact (plain_floatText x).inked style
  | .text s => by
    rw [render]
    exact inked_stringText style s
  | .list [] => by
    rw [render]
    exact Plain.inked (by decide) style
  | .list (j :: js) => by
    rw [render]
    simp only [inked_append, inked_cons]
    exact ⟨⟨⟨⟨⟨.inl (by decide), inked_newline style (level + 1)⟩,
      inked_render style (level + 1) j⟩, inked_items style (level + 1) js⟩,
      inked_newline style level⟩, .inl (by decide), nofun⟩
  | .object [] => by
    rw [render]
    exact Plain.inked (by decide) style
  | .object ((name, j) :: es) => by
    rw [render]
    simp only [inked_append, inked_cons]
    exact ⟨⟨⟨⟨⟨⟨.inl (by decide), inked_newline style (level + 1)⟩,
      inked_stringText style name⟩, .inl (by decide), .inl (by decide),
      inked_render style (level + 1) j⟩, inked_members style (level + 1) es⟩,
      inked_newline style level⟩, .inl (by decide), nofun⟩

theorem inked_items (style : Style) (level : Nat) :
    (js : List Json) → Inked style (renderItems style level js)
  | [] => by
    rw [renderItems]
    exact nofun
  | j :: js => by
    rw [renderItems]
    exact inked_append.mpr ⟨inked_append.mpr ⟨inked_separator style level,
      inked_render style level j⟩, inked_items style level js⟩

theorem inked_members (style : Style) (level : Nat) :
    (es : List (String × Json)) → Inked style (renderMembers style level es)
  | [] => by
    rw [renderMembers]
    exact nofun
  | (name, j) :: es => by
    rw [renderMembers]
    simp only [inked_append, inked_cons]
    exact ⟨⟨⟨inked_separator style level, inked_stringText style name⟩,
      .inl (by decide), .inl (by decide), inked_render style level j⟩,
      inked_members style level es⟩

end

/-- A text without controls but line feeds. -/
def Printed (cs : List Char) : Prop := ∀ c ∈ cs, c = '\n' ∨ ' ' ≤ c

theorem Printed.no_return {cs : List Char} (h : Printed cs) : '\r' ∉ cs :=
  fun hreturn => absurd (h _ hreturn) (by decide)

/-- **Written JSON has no controls but line feeds.** -/
theorem printed_render (style : Style) (level : Nat) (j : Json) :
    Printed (render style level j) := by
  intro c hc
  obtain h | h | h := inked_render style level j c hc
  · exact .inr h.1
  · exact .inl h.1
  · exact .inr h.1

/-- **A request is one line of printable ASCII.** -/
theorem plain_wire (level : Nat) (j : Json) : Plain (render wire level j) := by
  intro c hc
  obtain h | ⟨-, hlines⟩ | ⟨-, hascii⟩ := inked_render wire level j c hc
  · exact h
  · cases hlines
  · cases hascii

/-- **Written JSON comes back from a file.** -/
theorem ofFile?_write {style : Style} {j : Json} {text : String} (h : write style j = .ok text) :
    ofFile? (encode text) = some text := by
  rw [ofFile?_encode, text_of_write h, String.toList_ofList]
  exact (printed_render style 0 j).no_return

end Json

/-! ## 3. JSON in files -/

theorem World.loadJson_eq_some {w : World} {p : PartPath} {j : Json} :
    w.loadJson p = .ok (some j) ↔ ∃ content text, w.files.read w.cwd p.text = .ok content ∧
      Text.ofFile? content = some text ∧ Json.read text = .ok j := by
  unfold World.loadJson
  constructor
  · intro h
    split at h
    · cases h
    · cases h
    · rename_i content hcontent
      split at h
      · cases h
      · rename_i text htext
        exact ⟨content, text, hcontent, htext, Json.attempt_eq_some.mp h⟩
  · rintro ⟨content, text, hcontent, htext, hread⟩
    rw [hcontent]
    dsimp only
    rw [htext]
    exact Json.attempt_eq_some.mpr hread

end LintHost
