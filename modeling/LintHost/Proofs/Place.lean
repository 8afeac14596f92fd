import LintHost.Proofs.PathText
import Mathlib.Data.List.Basic

/-!
# The places that paths name

Carrying out `..` in an absolute path leaves a root and names: a place. Everything that the path
functions do to absolute paths is stated here as what they do to places.

* `IsName`: an entry that is not `..`; `PartPath.Settled`: a root and names;
  `PartPath.Reduced`: what is left of any path when its `..` are carried out;
* `place`: what an absolute path, or one seen from a working directory, names; `absolute` writes it
  down (`absolute_eq`);
* `descend`: where components lead from a place;
* `directory_text`, `base_text`, `components_text`: cutting a place's text apart;
* `descend_way`: the way from one place to another leads there;
* `absolute_agree_iff`: when a path that is not absolute means the same from two directories.
-/

namespace LintHost

open LintHost.Text

namespace Path

/-! ## 1. Carrying out `..` -/

theorem isEntry_dotDot : IsEntry dotDot := ⟨by decide, by decide, by decide⟩

/-- An entry that is not `..` either. -/
structure IsName (n : List Char) : Prop extends IsEntry n where
  ne_dotDot : n ≠ dotDot

theorem push_skip {rooted : Bool} {stack : List (List Char)} {n : List Char}
    (h : n = [] ∨ n = dot) : push rooted stack n = stack := by
  rw [push.eq_def, if_pos h]

theorem push_name {n : List Char} (h : IsName n) (rooted : Bool) (stack : List (List Char)) :
    push rooted stack n = n :: stack := by
  rw [push.eq_def, if_neg (not_or.mpr ⟨h.nonempty, h.ne_dot⟩), if_neg h.ne_dotDot]

/-- On names below a root `..` takes the last one off, if there is one. -/
theorem push_dotDot {stack : List (List Char)} (h : ∀ n ∈ stack, IsName n) :
    push true stack dotDot = stack.tail := by
  rw [push.eq_def, if_neg (by decide), if_pos rfl]
  cases stack with
  | nil => rfl
  | cons top rest => exact if_neg (h top List.mem_cons_self).ne_dotDot

/-- Empty components and `.` have no effect. -/
theorem foldl_push_filter (rooted : Bool) : ∀ (components stack : List (List Char)),
    components.foldl (push rooted) stack =
      (components.filter fun n => n ≠ [] ∧ n ≠ dot).foldl (push rooted) stack
  | [], _ => rfl
  | n :: rest, stack => by
    by_cases h : n = [] ∨ n = dot
    · rw [List.foldl_cons, push_skip h, List.filter_cons_of_neg, foldl_push_filter rooted rest]
      rcases h with rfl | rfl <;> decide
    · rw [List.filter_cons_of_pos (by simpa [not_or] using h), List.foldl_cons, List.foldl_cons,
        foldl_push_filter rooted rest]

theorem reduce_split (rooted : Bool) (path : List Char) :
    reduce rooted (split path) = reduce rooted (entries path) := by
  rw [reduce, foldl_push_filter]
  rfl

theorem foldl_push_names (rooted : Bool) : ∀ (names stack : List (List Char)),
    (∀ n ∈ names, IsName n) → names.foldl (push rooted) stack = names.reverse ++ stack
  | [], _, _ => rfl
  | n :: rest, stack, h => by
    rw [List.foldl_cons, push_name (h n List.mem_cons_self),
      foldl_push_names rooted rest _ fun m hm => h m (List.mem_cons_of_mem _ hm),
      List.reverse_cons, List.append_assoc]
    rfl

/-- Names reduce to themselves. -/
theorem reduce_names (rooted : Bool) {names : List (List Char)} (h : ∀ n ∈ names, IsName n) :
    reduce rooted names = names := by
  rw [reduce, foldl_push_names rooted names [] h, List.append_nil, List.reverse_reverse]

/-- Below a root only names are kept. -/
theorem push_names {stack : List (List Char)} {n : List Char} (hs : ∀ m ∈ stack, IsName m)
    (hn : IsEntry n) : ∀ m ∈ push true stack n, IsName m := by
  by_cases hd : n = dotDot
  · subst hd
    rw [push_dotDot hs]
    exact fun m hm => hs m (List.mem_of_mem_tail hm)
  · have hname : IsName n := ⟨hn, hd⟩
    rw [push_name hname]
    intro m hm
    rcases List.mem_cons.mp hm with rfl | hm
    · exact hname
    · exact hs m hm

theorem foldl_push_isName : ∀ (components stack : List (List Char)),
    (∀ n ∈ components, IsEntry n) → (∀ m ∈ stack, IsName m) →
      ∀ m ∈ components.foldl (push true) stack, IsName m
  | [], _, _, hs => hs
  | n :: rest, _, h, hs =>
    foldl_push_isName rest _ (fun m hm => h m (List.mem_cons_of_mem _ hm))
      (push_names hs (h n List.mem_cons_self))

theorem reduce_isName {components : List (List Char)} (h : ∀ n ∈ components, IsEntry n) :
    ∀ m ∈ reduce true components, IsName m := by
  intro m hm
  exact foldl_push_isName components [] h (by simp) m (List.mem_reverse.mp hm)

/-! ## 2. Where components lead -/

/-- Where components lead from the place with these names. -/
def descend (names components : List (List Char)) : List (List Char) :=
  (components.foldl (push true) names.reverse).reverse

theorem descend_nil (names : List (List Char)) : descend names [] = names :=
  List.reverse_reverse names

theorem descend_append (names components rest : List (List Char)) :
    descend names (components ++ rest) = descend (descend names components) rest := by
  rw [descend, descend, descend, List.foldl_append, List.reverse_reverse]

theorem reduce_append (components rest : List (List Char)) :
    reduce true (components ++ rest) = descend (reduce true components) rest := by
  rw [reduce, reduce, descend, List.foldl_append, List.reverse_reverse]

/-- Names lead down. -/
theorem descend_names (names : List (List Char)) {rest : List (List Char)}
    (h : ∀ n ∈ rest, IsName n) : descend names rest = names ++ rest := by
  rw [descend, foldl_push_names true rest _ h, List.reverse_append, List.reverse_reverse,
    List.reverse_reverse]

/-- `..` leads up. -/
theorem foldl_push_dotDot : ∀ (k : Nat) (stack : List (List Char)), (∀ n ∈ stack, IsName n) →
    (List.replicate k dotDot).foldl (push true) stack = stack.drop k
  | 0, _, _ => rfl
  | k + 1, stack, h => by
    have htail : ∀ n ∈ stack.tail, IsName n := fun n hn => h n (List.mem_of_mem_tail hn)
    rw [List.replicate_succ, List.foldl_cons, push_dotDot h, foldl_push_dotDot k _ htail,
      List.drop_tail]

theorem descend_up {names : List (List Char)} (h : ∀ n ∈ names, IsName n) (k : Nat) :
    descend names (List.replicate k dotDot) = names.take (names.length - k) := by
  rw [descend, foldl_push_dotDot k _ fun n hn => h n (List.mem_reverse.mp hn), List.drop_reverse,
    List.reverse_reverse]

/-! ## 3. Ways -/

/-- What two lists begin with, as far as that goes. -/
structure LongestShared (shared start goal : List (List Char)) : Prop where
  left : shared <+: start
  right : shared <+: goal
  longest : ∀ other, other <+: start → other <+: goal → other <+: shared

theorem LongestShared.nothing {start goal : List (List Char)}
    (h : ∀ other, other <+: start → other <+: goal → other <+: []) :
    LongestShared [] start goal := ⟨List.nil_prefix, List.nil_prefix, h⟩

theorem LongestShared.cons {shared start goal : List (List Char)}
    (h : LongestShared shared start goal) (a : List Char) :
    LongestShared (a :: shared) (a :: start) (a :: goal) := by
  refine ⟨(List.prefix_cons_inj a).mpr h.left, (List.prefix_cons_inj a).mpr h.right, ?_⟩
  intro other hstart hgoal
  cases other with
  | nil => exact List.nil_prefix
  | cons c other =>
    obtain ⟨hc, hstart⟩ := List.cons_prefix_cons.mp hstart
    obtain ⟨-, hgoal⟩ := List.cons_prefix_cons.mp hgoal
    exact List.cons_prefix_cons.mpr ⟨hc, h.longest other hstart hgoal⟩

/-- What two lists begin with, and what each has beyond it. -/
theorem diverge_spec : ∀ start goal : List (List Char), ∃ shared rest,
    LongestShared shared start goal ∧ start = shared ++ rest ∧
      rest.length = (diverge start goal).1 ∧ goal = shared ++ (diverge start goal).2
  | [], goal => ⟨[], [], .nothing fun _ hstart _ => hstart, rfl, by unfold diverge; rfl,
      by unfold diverge; rfl⟩
  | a :: as, [] => ⟨[], a :: as, .nothing fun _ _ hgoal => hgoal, rfl, by unfold diverge; rfl,
      by unfold diverge; rfl⟩
  | a :: as, b :: bs => by
    by_cases h : a = b
    · subst h
      obtain ⟨shared, rest, hlongest, hstart, hlength, hgoal⟩ := diverge_spec as bs
      refine ⟨a :: shared, rest, hlongest.cons a, by rw [hstart, List.cons_append], ?_, ?_⟩
      · rw [diverge, if_pos rfl]
        exact hlength
      · rw [diverge, if_pos rfl, List.cons_append, ← hgoal]
    · refine ⟨[], a :: as, .nothing fun other hstart hgoal => ?_, rfl, ?_, ?_⟩
      · cases other with
        | nil => exact List.nil_prefix
        | cons c other =>
          have hca := (List.cons_prefix_cons.mp hstart).1
          have hcb := (List.cons_prefix_cons.mp hgoal).1
          exact absurd (hca.symm.trans hcb) h
      · rw [diverge, if_neg h]
      · rw [diverge, if_neg h]
        rfl

/-- **The way from one place to another leads there.** -/
theorem descend_way {start goal : List (List Char)} (hstart : ∀ n ∈ start, IsName n)
    (hgoal : ∀ n ∈ goal, IsName n) : descend start (way start goal) = goal := by
  obtain ⟨shared, rest, -, hs, hlength, hg⟩ := diverge_spec start goal
  have hdowns : ∀ n ∈ (diverge start goal).2, IsName n := by
    intro n hn
    refine hgoal n ?_
    rw [hg]
    exact List.mem_append_right _ hn
  have hup : start.take (start.length - (diverge start goal).1) = shared := by
    have hlen : start.length = shared.length + rest.length := by rw [hs, List.length_append]
    have hsub : start.length - (diverge start goal).1 = shared.length := by omega
    rw [hsub, hs, List.take_left]
  show descend start (List.replicate (diverge start goal).1 dotDot ++ (diverge start goal).2) = goal
  rw [descend_append, descend_up hstart, hup, descend_names _ hdowns, ← hg]

/-- The steps of a way are components that count. -/
theorem isEntry_way {start goal : List (List Char)} (hgoal : ∀ n ∈ goal, IsName n) :
    ∀ n ∈ way start goal, IsEntry n := by
  obtain ⟨shared, rest, -, -, -, hg⟩ := diverge_spec start goal
  intro n hn
  rcases List.mem_append.mp hn with hn | hn
  · rw [List.eq_of_mem_replicate hn]
    exact isEntry_dotDot
  · refine (hgoal n ?_).toIsEntry
    rw [hg]
    exact List.mem_append_right _ hn

end Path

/-! ## 4. Places -/

/-- A root and names below it. -/
structure PartPath.Settled (p : PartPath) : Prop where
  rooted : p.slashes ≠ 0
  slashes : p.slashes ≤ 2
  names : ∀ n ∈ p.names, Path.IsName n

theorem PartPath.Settled.plain {p : PartPath} (h : p.Settled) : p.Plain :=
  ⟨h.slashes, fun n hn => (h.names n hn).toIsEntry⟩

/-- Some `..`, none of them below a root, and names after them. -/
structure PartPath.Reduced (p : PartPath) : Prop where
  slashes : p.slashes ≤ 2
  updown : ∃ ups downs, p.names = List.replicate ups Path.dotDot ++ downs ∧
    (p.slashes ≠ 0 → ups = 0) ∧ ∀ n ∈ downs, Path.IsName n

theorem PartPath.Reduced.plain {p : PartPath} (h : p.Reduced) : p.Plain := by
  obtain ⟨ups, downs, hnames, -, hdowns⟩ := h.updown
  refine ⟨h.slashes, fun n hn => ?_⟩
  rw [hnames] at hn
  rcases List.mem_append.mp hn with hn | hn
  · rw [List.eq_of_mem_replicate hn]
    exact Path.isEntry_dotDot
  · exact (hdowns n hn).toIsEntry

/-- Below a root there is no `..` left. -/
theorem PartPath.Reduced.settled {p : PartPath} (h : p.Reduced) (hroot : p.slashes ≠ 0) :
    p.Settled := by
  obtain ⟨ups, downs, hnames, hups, hdowns⟩ := h.updown
  refine ⟨hroot, h.slashes, ?_⟩
  rw [hnames, hups hroot]
  exact hdowns

/-- The place so many directories up, or the root. -/
def PartPath.up (p : PartPath) (k : Nat) : PartPath :=
  ⟨p.slashes, p.names.take (p.names.length - k)⟩

theorem PartPath.Settled.parent {p : PartPath} (h : p.Settled) : p.parent.Settled :=
  ⟨h.rooted, h.slashes, fun n hn => h.names n (List.dropLast_subset _ hn)⟩

namespace Path

/-- A path with its `..` carried out. -/
def settle (path : List Char) : PartPath :=
  ⟨leadingSlashes path, reduce (leadingSlashes path ≠ 0) (split path)⟩

theorem normalizeChars_eq (path : List Char) : normalizeChars path = (settle path).chars := rfl

theorem settle_names {path : List Char} (h : startsWithSlash path = true) :
    (settle path).names = reduce true (entries path) := by
  have hrooted := leadingSlashes_ne_zero.mpr h
  show reduce (leadingSlashes path ≠ 0) (split path) = _
  rw [decide_eq_true hrooted, reduce_split]

theorem settled_settle {path : List Char} (h : startsWithSlash path = true) :
    (settle path).Settled := by
  refine ⟨leadingSlashes_ne_zero.mpr h, leadingSlashes_le path, ?_⟩
  rw [settle_names h]
  exact reduce_isName fun n hn => isEntry_of_mem_entries hn

theorem startsWithSlash_chars {p : PartPath} (h : p.slashes ≠ 0) :
    startsWithSlash p.chars = true := by
  rw [PartPath.chars_of_absolute h]
  obtain ⟨k, hk⟩ := Nat.exists_eq_succ_of_ne_zero h
  rw [hk, List.replicate_succ]
  rfl

theorem entries_chars {p : PartPath} (h : p.Plain) : entries p.chars = p.names :=
  congrArg PartPath.names (PartPath.ofChars_chars h)

/-- Carrying out `..` in the text of a place changes nothing. -/
theorem settle_chars {p : PartPath} (h : p.Settled) : settle p.chars = p := by
  have hslashes : leadingSlashes p.chars = p.slashes :=
    congrArg PartPath.slashes (PartPath.ofChars_chars h.plain)
  have hnames : (settle p.chars).names = p.names := by
    rw [settle_names (startsWithSlash_chars h.rooted), entries_chars h.plain,
      reduce_names true h.names]
  show (⟨leadingSlashes p.chars, (settle p.chars).names⟩ : PartPath) = p
  rw [hslashes, hnames]

/-- The place that a path names, seen from a working directory. -/
def place (cwd path : String) : PartPath :=
  settle (if isAbsolute path then path.toList else joinChars cwd.toList path.toList)

theorem absolute_eq (cwd path : String) : absolute cwd path = (place cwd path).text := by
  unfold absolute place normalize PartPath.text
  rw [normalizeChars_eq]
  split
  · rfl
  · rw [join, String.toList_ofList]

theorem startsWithSlash_joinChars {base : List Char} (h : startsWithSlash base = true)
    (path : List Char) : startsWithSlash (joinChars base path) = true := by
  unfold joinChars
  split
  · assumption
  · split
    · exact startsWithSlash_append _ h
    · exact startsWithSlash_append _ h

theorem settled_place {cwd : String} (h : isAbsolute cwd = true) (path : String) :
    (place cwd path).Settled := by
  unfold place
  split
  · exact settled_settle ‹_›
  · exact settled_settle (startsWithSlash_joinChars h _)

theorem isAbsolute_text {p : PartPath} (h : p.slashes ≠ 0) : isAbsolute p.text = true := by
  rw [isAbsolute, PartPath.text, String.toList_ofList, startsWithSlash_chars h]

/-- The text of a place names the place, wherever it is seen from. -/
theorem place_text {p : PartPath} (h : p.Settled) (cwd : String) : place cwd p.text = p := by
  rw [place, if_pos (isAbsolute_text h.rooted), PartPath.text, String.toList_ofList, settle_chars h]

theorem startsWithSlash_cons (c : Char) (cs : List Char) :
    startsWithSlash (c :: cs) = decide (c = '/') := by
  by_cases hc : c = '/'
  · subst hc
    rfl
  · unfold startsWithSlash
    split
    · rename_i heq
      exact absurd (List.cons.inj heq).1 hc
    · exact (decide_eq_false hc).symm

/-- What a path that is not absolute is seen from decides whether the whole is absolute. -/
theorem isAbsolute_join (base : String) {path : String} (h : isAbsolute path = false) :
    isAbsolute (join base path) = isAbsolute base := by
  rw [isAbsolute, join, String.toList_ofList, joinChars,
    if_neg (by rw [show startsWithSlash path.toList = false from h]; decide), isAbsolute]
  cases hbase : base.toList with
  | nil => exact h
  | cons c cs => split <;> exact (startsWithSlash_cons c _).trans (startsWithSlash_cons c _).symm

theorem isAbsolute_text_eq {p : PartPath} (h : p.Plain) : isAbsolute p.text = p.isAbsolute := by
  by_cases hroot : p.slashes = 0
  · rw [isAbsolute, PartPath.text, String.toList_ofList, PartPath.chars, hroot,
      PartPath.isAbsolute, hroot]
    split
    · rfl
    · exact startsWithSlash_unsplit h.names
  · rw [isAbsolute_text hroot]
    exact (decide_eq_true hroot).symm

/-! ## 5. Cutting the text of a place apart -/

theorem takeWhile_before_slash {u : List Char} (h : '/' ∉ u) (v : List Char) :
    (u ++ '/' :: v).takeWhile (· ≠ '/') = u := by
  have hu : ∀ c ∈ u, decide (c ≠ '/') = true := fun c hc =>
    decide_eq_true fun e => h (by rw [← e]; exact hc)
  rw [List.takeWhile_append_of_pos hu, List.takeWhile_cons_of_neg (by decide), List.append_nil]

theorem dropWhile_before_slash {u : List Char} (h : '/' ∉ u) (v : List Char) :
    (u ++ '/' :: v).dropWhile (· ≠ '/') = '/' :: v := by
  have hu : ∀ c ∈ u, decide (c ≠ '/') = true := fun c hc =>
    decide_eq_true fun e => h (by rw [← e]; exact hc)
  rw [List.dropWhile_append_of_pos hu, List.dropWhile_cons_of_neg (by decide)]

theorem reverse_slash (u v : List Char) :
    (u ++ '/' :: v).reverse = v.reverse ++ '/' :: u.reverse := by
  rw [List.reverse_append, List.reverse_cons, List.append_assoc]
  rfl

theorem baseChars_slash (u : List Char) {v : List Char} (h : '/' ∉ v) :
    baseChars (u ++ '/' :: v) = v := by
  rw [baseChars, reverse_slash, takeWhile_before_slash (mt List.mem_reverse.mp h),
    List.reverse_reverse]

/-- A directory without slashes at its end is what stands before the last slash. -/
theorem directoryChars_slash (u : List Char) {c : Char} (hc : c ≠ '/') {v : List Char}
    (h : '/' ∉ v) : directoryChars (u ++ c :: '/' :: v) = u ++ [c] := by
  have hsplit : u ++ c :: '/' :: v = (u ++ [c]) ++ '/' :: v := by
    rw [List.append_assoc]
    rfl
  have hhead : ('/' :: (u ++ [c]).reverse).reverse = u ++ [c] ++ ['/'] := by
    rw [List.reverse_cons, List.reverse_reverse]
  have hall : ¬((u ++ [c] ++ ['/']).all (· = '/') = true) := by
    intro hall
    exact hc (by simpa using List.all_eq_true.mp hall c (by simp))
  rw [directoryChars, hsplit, reverse_slash, dropWhile_before_slash (mt List.mem_reverse.mp h)]
  rw [hhead, if_neg hall, List.reverse_append, List.reverse_append]
  show ((['/'] ++ ([c] ++ u.reverse)).dropWhile (· = '/')).reverse = u ++ [c]
  rw [List.singleton_append, List.dropWhile_cons_of_pos (by decide), List.singleton_append,
    List.dropWhile_cons_of_neg (by simpa using hc), List.reverse_cons, List.reverse_reverse]

/-- A directory of slashes stays as it is. -/
theorem directoryChars_root (k : Nat) {v : List Char} (h : '/' ∉ v) :
    directoryChars (List.replicate (k + 1) '/' ++ v) = List.replicate (k + 1) '/' := by
  have hsplit : List.replicate (k + 1) '/' ++ v = List.replicate k '/' ++ '/' :: v := by
    rw [List.replicate_succ', List.append_assoc]
    rfl
  have hhead : ('/' :: (List.replicate k '/').reverse).reverse = List.replicate (k + 1) '/' := by
    rw [List.reverse_cons, List.reverse_reverse, List.replicate_succ']
  rw [directoryChars, hsplit, reverse_slash, dropWhile_before_slash (mt List.mem_reverse.mp h)]
  rw [hhead, if_pos]
  exact List.all_eq_true.mpr fun c hc => decide_eq_true (List.eq_of_mem_replicate hc)

theorem unsplit_concat : ∀ {names : List (List Char)}, names ≠ [] → ∀ n : List Char,
    unsplit (names ++ [n]) = unsplit names ++ '/' :: n
  | [m], _, n => by simp [unsplit, intercalate]
  | m :: m' :: names, _, n => by
    have ih := unsplit_concat (List.cons_ne_nil m' names) n
    have hcons (rest : List (List Char)) (hrest : rest ≠ []) :
        unsplit (m :: rest) = m ++ '/' :: unsplit rest := by
      cases rest with
      | nil => exact absurd rfl hrest
      | cons r rest => simp [unsplit, intercalate]
    rw [List.cons_append, hcons _ (by simp), ih, hcons _ (by simp), List.append_assoc]
    rfl

/-- The text of entries does not end in a slash. -/
theorem unsplit_last {names : List (List Char)} (hne : names ≠ []) (h : ∀ n ∈ names, IsEntry n) :
    ∃ u c, unsplit names = u ++ [c] ∧ c ≠ '/' := by
  obtain ⟨init, n, rfl⟩ := (List.eq_nil_or_concat' names).resolve_left hne
  have hn := h n (by simp)
  obtain ⟨v, c, rfl⟩ := (List.eq_nil_or_concat' n).resolve_left hn.nonempty
  have hc : c ≠ '/' := fun e => hn.no_slash (by simp [e])
  by_cases hinit : init = []
  · exact ⟨v, c, by simp [hinit, unsplit, intercalate], hc⟩
  · refine ⟨unsplit init ++ '/' :: v, c, ?_, hc⟩
    rw [unsplit_concat hinit, List.append_assoc]
    rfl

/-- The last name below a root stands after a slash. -/
theorem rooted_concat (k : Nat) (init : List (List Char)) (n : List Char) :
    ∃ u, List.replicate (k + 1) '/' ++ unsplit (init ++ [n]) = u ++ '/' :: n := by
  by_cases hinit : init = []
  · refine ⟨List.replicate k '/', ?_⟩
    rw [hinit, List.replicate_succ', List.append_assoc]
    rfl
  · refine ⟨List.replicate (k + 1) '/' ++ unsplit init, ?_⟩
    rw [unsplit_concat hinit, List.append_assoc]

theorem directoryChars_rooted (k : Nat) {init : List (List Char)} (h : ∀ m ∈ init, IsEntry m)
    {n : List Char} (hn : '/' ∉ n) :
    directoryChars (List.replicate (k + 1) '/' ++ unsplit (init ++ [n])) =
      List.replicate (k + 1) '/' ++ unsplit init := by
  by_cases hinit : init = []
  · subst hinit
    show directoryChars (List.replicate (k + 1) '/' ++ n) = List.replicate (k + 1) '/' ++ []
    rw [directoryChars_root k hn, List.append_nil]
  · obtain ⟨u, c, hu, hc⟩ := unsplit_last hinit h
    have hwhole : List.replicate (k + 1) '/' ++ unsplit (init ++ [n]) =
        (List.replicate (k + 1) '/' ++ u) ++ c :: '/' :: n := by
      rw [unsplit_concat hinit, hu]
      simp
    rw [hwhole, directoryChars_slash _ hc hn, hu, List.append_assoc]

/-- **The directory of a place** is the place above it. -/
theorem directory_text {p : PartPath} (h : p.Settled) : directory p.text = p.parent.text := by
  obtain ⟨k, hk⟩ := Nat.exists_eq_succ_of_ne_zero h.rooted
  rw [directory, PartPath.text, PartPath.text, String.toList_ofList,
    PartPath.chars_of_absolute h.rooted, PartPath.chars_of_absolute h.parent.rooted]
  congr 1
  show directoryChars (List.replicate p.slashes '/' ++ unsplit p.names) =
    List.replicate p.slashes '/' ++ unsplit p.names.dropLast
  rw [hk]
  rcases List.eq_nil_or_concat' p.names with hnil | ⟨init, n, hnames⟩
  · rw [hnil]
    show directoryChars (List.replicate (k + 1) '/' ++ []) = List.replicate (k + 1) '/' ++ []
    rw [directoryChars_root k (by simp), List.append_nil]
  · rw [hnames, List.dropLast_concat]
    refine directoryChars_rooted k (fun m hm => ?_) ?_
    · exact (h.names m (by rw [hnames]; exact List.mem_append_left _ hm)).toIsEntry
    · exact (h.names n (by rw [hnames]; simp)).no_slash

/-- The base of a place is its last name. -/
theorem base_text {p : PartPath} (h : p.Settled) :
    base p.text = String.ofList (p.names.getLast?.getD []) := by
  obtain ⟨k, hk⟩ := Nat.exists_eq_succ_of_ne_zero h.rooted
  rw [base, PartPath.text, String.toList_ofList, PartPath.chars_of_absolute h.rooted, hk]
  congr 1
  rcases List.eq_nil_or_concat' p.names with hnil | ⟨init, n, hnames⟩
  · have hroot := baseChars_slash (List.replicate k '/') (v := []) (by simp)
    rw [hnil, List.replicate_succ', List.append_assoc]
    exact hroot
  · have hn := (h.names n (by rw [hnames]; simp)).no_slash
    obtain ⟨u, hu⟩ := rooted_concat k init n
    rw [hnames, hu, baseChars_slash u hn, List.getLast?_concat, Option.getD_some]

/-- The components of a place are its names. -/
theorem components_text {p : PartPath} (h : p.Settled) : components p.text = p.names := by
  rw [components, PartPath.text, String.toList_ofList, PartPath.chars_of_absolute h.rooted,
    filter_split_slashes (by decide)]
  by_cases hne : p.names = []
  · rw [hne]
    rfl
  · rw [split_unsplit hne fun n hn => (h.names n hn).no_slash, List.filter_eq_self]
    exact fun n hn => by simpa using (h.names n hn).nonempty

/-! ## 6. Paths seen from a place -/

theorem entries_joinChars (base : List Char) {path : List Char}
    (h : startsWithSlash path = false) :
    entries (joinChars base path) = entries base ++ entries path := by
  rw [joinChars, if_neg (by rw [h]; decide)]
  split
  · rename_i hbase
    rcases hbase with hempty | hlast
    · rw [List.isEmpty_iff.mp hempty]
      rfl
    · obtain ⟨init, rfl⟩ := List.getLast?_eq_some_iff.mp hlast
      have hslash := entries_append_slash init path
      have hinit := entries_append_slash init []
      rw [entries_nil, List.append_nil] at hinit
      rw [List.append_assoc]
      exact hslash.trans (congrArg (· ++ entries path) hinit.symm)
  · exact entries_append_slash base path

/-- A path that is not absolute adds no leading slashes to what it is seen from. -/
theorem leadingSlashes_joinChars {base path : List Char} (hbase : startsWithSlash base = true)
    (h : startsWithSlash path = false) :
    leadingSlashes (joinChars base path) = leadingSlashes base := by
  obtain ⟨rest, rfl⟩ : ∃ rest, base = '/' :: rest := by
    unfold startsWithSlash at hbase
    split at hbase
    · exact ⟨_, rfl⟩
    · cases hbase
  rw [joinChars, if_neg (by rw [h]; decide)]
  -- One or two slashes alone are followed by the path itself. In any other base the third slash,
  -- or the first character that is no slash, stands before what is added.
  rcases rest with _ | ⟨c, rest⟩
  · exact leadingSlashes_replicate h (k := 1) (by decide)
  by_cases hc : c = '/'
  · subst hc
    rcases rest with _ | ⟨d, rest⟩
    · exact leadingSlashes_replicate h (k := 2) (by decide)
    by_cases hd : d = '/'
    · subst hd
      split <;> rfl
    · split <;> simp [leadingSlashes, hd]
  · split <;> simp [leadingSlashes, hc]

/-- Where a path leads that is seen from a working directory. -/
theorem place_relative {cwd path : String} (hcwd : isAbsolute cwd = true)
    (h : isAbsolute path = false) : place cwd path =
      ⟨leadingSlashes cwd.toList,
        descend (reduce true (entries cwd.toList)) (entries path.toList)⟩ := by
  have hsettle : place cwd path = settle (joinChars cwd.toList path.toList) := by
    rw [place, if_neg (by rw [h]; decide)]
  have hnames : (place cwd path).names =
      descend (reduce true (entries cwd.toList)) (entries path.toList) := by
    rw [hsettle, settle_names (startsWithSlash_joinChars hcwd _), entries_joinChars _ h,
      reduce_append]
  have hslashes : (place cwd path).slashes = leadingSlashes cwd.toList := by
    rw [hsettle]
    exact leadingSlashes_joinChars hcwd h
  rw [← hnames, ← hslashes]

/-- Where a path leads that is written behind a place. -/
theorem settle_behind {p : PartPath} (h : p.Settled) (path : List Char) :
    (settle (p.chars ++ '/' :: path)).Settled ∧
      (settle (p.chars ++ '/' :: path)).names = descend p.names (entries path) := by
  have hrooted := startsWithSlash_append ('/' :: path) (startsWithSlash_chars h.rooted)
  refine ⟨settled_settle hrooted, ?_⟩
  rw [settle_names hrooted, entries_append_slash, entries_chars h.plain, reduce_append,
    reduce_names true h.names]

/-! ## 7. Relative paths -/

theorem entries_name {n : List Char} (h : IsEntry n) : entries n = [n] := by
  have hall : ∀ m ∈ [n], IsEntry m := by
    intro m hm
    rw [List.mem_singleton.mp hm]
    exact h
  exact entries_unsplit hall

theorem entries_relative {cwd : String} (hcwd : isAbsolute cwd = true) (path root : String) :
    entries (relative cwd path root).toList =
      way (place cwd root).names (place cwd path).names := by
  have hpath := settled_place hcwd path
  have hroot := settled_place hcwd root
  unfold relative
  rw [absolute_eq, absolute_eq, components_text hpath, components_text hroot, String.toList_ofList]
  split
  · rename_i hempty
    rw [List.isEmpty_iff.mp hempty]
    rfl
  · exact entries_unsplit (isEntry_way hpath.names)

/-- **A relative path leads from its root to its goal.** -/
theorem descend_relative {cwd : String} (hcwd : isAbsolute cwd = true) (path root : String) :
    descend (place cwd root).names (entries (relative cwd path root).toList) =
      (place cwd path).names := by
  rw [entries_relative hcwd,
    descend_way (settled_place hcwd root).names (settled_place hcwd path).names]

/-- The base of a place leads there from its directory. -/
theorem descend_base {p : PartPath} (h : p.Settled) :
    descend p.parent.names (entries (base p.text).toList) = p.names := by
  rw [base_text h, String.toList_ofList]
  show descend p.names.dropLast _ = p.names
  rcases List.eq_nil_or_concat' p.names with hnil | ⟨init, n, hnames⟩
  · rw [hnil]
    rfl
  · have hn := h.names n (by rw [hnames]; simp)
    have hsingle : ∀ m ∈ [n], IsName m := by
      intro m hm
      rw [List.mem_singleton.mp hm]
      exact hn
    rw [hnames, List.getLast?_concat, Option.getD_some, List.dropLast_concat,
      entries_name hn.toIsEntry, descend_names _ hsingle]

/-! ## 8. One slash or two -/

/-- Two absolute paths that differ at most in beginning with one slash or with two. -/
structure SamePlace (a b : String) : Prop where
  left : isAbsolute a = true
  right : isAbsolute b = true
  text : a = b ∨ a = "/" ++ b ∨ b = "/" ++ a

theorem samePlace_text {p q : PartPath} (hp : p.Settled) (hq : q.Settled)
    (h : p.names = q.names) : SamePlace p.text q.text := by
  refine ⟨isAbsolute_text hp.rooted, isAbsolute_text hq.rooted, ?_⟩
  have more {a b : PartPath} (ha : a.slashes ≠ 0) (hb : b.slashes = a.slashes + 1)
      (hab : a.names = b.names) : b.text = "/" ++ a.text := by
    have hb' : b.slashes ≠ 0 := by omega
    refine String.toList_inj.mp ?_
    rw [String.toList_append, PartPath.text, PartPath.text, String.toList_ofList,
      String.toList_ofList, String.toList_ofList, PartPath.chars_of_absolute ha,
      PartPath.chars_of_absolute hb', hb, hab, List.replicate_succ]
    rfl
  have hp0 := hp.rooted
  have hq0 := hq.rooted
  have hp2 := hp.slashes
  have hq2 := hq.slashes
  have hcases : p.slashes = q.slashes ∨ p.slashes = q.slashes + 1 ∨ q.slashes = p.slashes + 1 := by
    omega
  rcases hcases with heq | hmore | hmore
  · refine Or.inl (congrArg PartPath.text ?_)
    obtain ⟨k, names⟩ := p
    obtain ⟨l, others⟩ := q
    cases heq
    cases h
    rfl
  · exact Or.inr (Or.inl (more hq0 hmore h.symm))
  · exact Or.inr (Or.inr (more hp0 hmore h))

/-! ## 9. One path seen from two directories -/

/-- How many directories a path that is not absolute goes up before it goes down. -/
def ascents (path : String) : Nat :=
  ((reduce false (entries path.toList)).takeWhile (· = dotDot)).length

/-- One component, on some `..` with names on top and on a stack with as many names taken off and
    the same put on: the two stay alike. -/
theorem push_updown {n : List Char} (hn : IsEntry n) {downs : List (List Char)}
    (hdowns : ∀ m ∈ downs, IsName m) (ups : Nat) : ∃ downs' ups', (∀ m ∈ downs', IsName m) ∧
      push false (downs ++ List.replicate ups dotDot) n =
        downs' ++ List.replicate ups' dotDot ∧
      ∀ stack : List (List Char), (∀ m ∈ stack, IsName m) →
        push true (downs ++ stack.drop ups) n = downs' ++ stack.drop ups' := by
  by_cases hup : n = dotDot
  · subst hup
    cases downs with
    | nil =>
      -- No name is left to take off: the path goes one further up.
      refine ⟨[], ups + 1, hdowns, ?_, fun stack hstack => ?_⟩
      · cases ups with
        | zero => rfl
        | succ k => rfl
      · have hdrop : ∀ m ∈ stack.drop ups, IsName m := fun m hm =>
          hstack m (List.mem_of_mem_drop hm)
        rw [List.nil_append, push_dotDot hdrop, List.tail_drop, List.nil_append]
    | cons top downs =>
      have hpop (rooted : Bool) (stack : List (List Char)) :
          push rooted (top :: stack) dotDot = stack := by
        rw [push.eq_def, if_neg (by decide), if_pos rfl]
        exact if_neg (hdowns top List.mem_cons_self).ne_dotDot
      exact ⟨downs, ups, fun m hm => hdowns m (List.mem_cons_of_mem _ hm), hpop _ _,
        fun stack _ => hpop _ _⟩
  · have hname : IsName n := ⟨hn, hup⟩
    refine ⟨n :: downs, ups, fun m hm => ?_, push_name hname _ _, fun _ _ => push_name hname _ _⟩
    rcases List.mem_cons.mp hm with rfl | hm
    · exact hname
    · exact hdowns m hm

/-- **Going up and then down**: without a root components come to some `..` and names after them;
    from a stack of names they take as many off and put the same names on. -/
theorem foldl_push_updown : ∀ (components : List (List Char)), (∀ n ∈ components, IsEntry n) →
    ∀ (downs : List (List Char)) (ups : Nat), (∀ m ∈ downs, IsName m) →
      ∃ downs' ups', (∀ m ∈ downs', IsName m) ∧
        components.foldl (push false) (downs ++ List.replicate ups dotDot) =
          downs' ++ List.replicate ups' dotDot ∧
        ∀ stack : List (List Char), (∀ m ∈ stack, IsName m) →
          components.foldl (push true) (downs ++ stack.drop ups) = downs' ++ stack.drop ups'
  | [], _, downs, ups, hdowns => ⟨downs, ups, hdowns, rfl, fun _ _ => rfl⟩
  | n :: rest, h, downs, ups, hdowns => by
    obtain ⟨downs₁, ups₁, hdowns₁, hfalse₁, htrue₁⟩ :=
      push_updown (h n List.mem_cons_self) hdowns ups
    obtain ⟨downs₂, ups₂, hdowns₂, hfalse₂, htrue₂⟩ := foldl_push_updown rest
      (fun m hm => h m (List.mem_cons_of_mem _ hm)) downs₁ ups₁ hdowns₁
    refine ⟨downs₂, ups₂, hdowns₂, ?_, fun stack hstack => ?_⟩
    · rw [List.foldl_cons, hfalse₁, hfalse₂]
    · rw [List.foldl_cons, htrue₁ stack hstack, htrue₂ stack hstack]

/-- What a path that is not absolute leads to from a place: some directories up, and from there
    down, wherever it is seen from. -/
theorem descend_updown (path : String) : ∃ downs, ∀ names : List (List Char),
    (∀ n ∈ names, IsName n) → descend names (entries path.toList) =
      names.take (names.length - ascents path) ++ downs := by
  obtain ⟨downs, ups, hnames, hfalse, htrue⟩ :=
    foldl_push_updown (entries path.toList) (fun n hn => isEntry_of_mem_entries hn) [] 0
      (fun n hn => nomatch hn)
  have hups : ascents path = ups := by
    have hreduce : reduce false (entries path.toList) =
        List.replicate ups dotDot ++ downs.reverse := by
      rw [reduce]
      exact (congrArg List.reverse hfalse).trans (by simp)
    have hdowns : downs.reverse.takeWhile (· = dotDot) = [] := by
      cases hd : downs.reverse with
      | nil => rfl
      | cons n rest =>
        have hn : n ∈ downs := List.mem_reverse.mp (hd ▸ List.mem_cons_self)
        exact List.takeWhile_cons_of_neg (by simpa using (hnames n hn).ne_dotDot)
    rw [ascents, hreduce, List.takeWhile_append_of_pos fun n hn => by
      simpa using List.eq_of_mem_replicate hn, hdowns, List.append_nil, List.length_replicate]
  refine ⟨downs.reverse, fun names h => ?_⟩
  have hstack := htrue names.reverse fun n hn => h n (List.mem_reverse.mp hn)
  rw [descend, hups]
  refine (congrArg List.reverse hstack).trans ?_
  rw [List.reverse_append, List.drop_reverse, List.reverse_reverse]

/-- **Carrying out `..`** leaves some of them, none below a root, and names after them. -/
theorem reduced_settle (path : List Char) : (settle path).Reduced := by
  by_cases hroot : startsWithSlash path = true
  · exact ⟨leadingSlashes_le path, 0, _, rfl, fun _ => rfl, (settled_settle hroot).names⟩
  · have hzero : leadingSlashes path = 0 :=
      Classical.byContradiction fun h => hroot (leadingSlashes_ne_zero.mp h)
    obtain ⟨downs, ups, hnames, hfalse, -⟩ :=
      foldl_push_updown (entries path) (fun n hn => isEntry_of_mem_entries hn) [] 0
        (fun n hn => nomatch hn)
    have hreduce : (settle path).names = List.replicate ups dotDot ++ downs.reverse := by
      show reduce (leadingSlashes path ≠ 0) (split path) = _
      rw [hzero, reduce_split]
      exact (congrArg List.reverse hfalse).trans (by simp)
    exact ⟨leadingSlashes_le path, ups, downs.reverse, hreduce, fun h => absurd hzero h,
      fun n hn => hnames n (List.mem_reverse.mp hn)⟩

/-- Carrying out `..` keeps a path absolute or not. -/
theorem isAbsolute_normalize (path : String) : isAbsolute (normalize path) = isAbsolute path := by
  have hnormal : normalize path = (settle path.toList).text := rfl
  rw [hnormal, isAbsolute_text_eq (reduced_settle _).plain]
  show decide (leadingSlashes path.toList ≠ 0) = startsWithSlash path.toList
  exact Bool.eq_iff_iff.mpr (decide_eq_true_iff.trans leadingSlashes_ne_zero)

theorem text_inj {p q : PartPath} (hp : p.Plain) (hq : q.Plain) (h : p.text = q.text) : p = q := by
  rw [← PartPath.ofText_text hp, h, PartPath.ofText_text hq]

/-- **A path means the same from two directories** exactly if it is absolute or the directories
    agree as far above as it goes up. -/
theorem absolute_agree_iff {a b : String} (ha : isAbsolute a = true) (hb : isAbsolute b = true)
    (path : String) : absolute a path = absolute b path ↔ isAbsolute path = true ∨
      (settle a.toList).up (ascents path) = (settle b.toList).up (ascents path) := by
  by_cases hpath : isAbsolute path = true
  · refine iff_of_true ?_ (Or.inl hpath)
    rw [absolute, absolute, if_pos hpath, if_pos hpath]
  · have hrelative : isAbsolute path = false := by simpa using hpath
    obtain ⟨downs, hdowns⟩ := descend_updown path
    have hplace {c : String} (hc : isAbsolute c = true) : place c path =
        ⟨(settle c.toList).slashes, ((settle c.toList).up (ascents path)).names ++ downs⟩ := by
      rw [place_relative hc hrelative, ← settle_names hc, hdowns _ (settled_settle hc).names]
      rfl
    rw [or_iff_right hpath, absolute_eq, absolute_eq]
    constructor
    · intro h
      have hsame := text_inj (settled_place ha path).plain (settled_place hb path).plain h
      rw [hplace ha, hplace hb] at hsame
      injection hsame with hslashes hnames
      exact congrArg₂ PartPath.mk hslashes (List.append_cancel_right hnames)
    · intro h
      injection h with hslashes hnames
      rw [hplace ha, hplace hb]
      show PartPath.text ⟨_, List.take _ _ ++ downs⟩ = PartPath.text ⟨_, List.take _ _ ++ downs⟩
      rw [hslashes, hnames]

end Path

end LintHost
