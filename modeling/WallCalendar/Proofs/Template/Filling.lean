import Mathlib.Tactic.ByContra
import WallCalendar.Template.Basic

/-!
Filling a template replaces its placeholders, all at once.

Where the placeholders stand is a matter of the source alone. A name holds no brace, so a placeholder
can neither begin inside another nor share its place with one, and what the page shows at each place
of the source can be told for that place: a value where a placeholder begins, nothing further inside
it, and everywhere else the character of the source. The search for braces from left to right finds
just these places, whatever braces stand around them: it stops at every pair of opening braces, and
the first closing braces after a placeholder's name are its own.
-/

namespace WallCalendar.Template

/-! ### Where placeholders stand -/

/-- Whether the placeholder of `key` stands in a text from the place `i` on. -/
def standsAt (source : List Char) (key : String) (i : Nat) : Bool :=
  (placeholder key).isPrefixOf (source.drop i)

/-- Whether a name holds no brace. -/
def isPlain (key : String) : Bool := key.toList.all fun c => c != '\x7b' && c != '\x7d'

variable {key key' : String} {source front rest : List Char} {i j : Nat}

theorem standsAt_iff : standsAt source key i = true ↔ placeholder key <+: source.drop i :=
  List.isPrefixOf_iff_prefix

theorem length_placeholder (key : String) : (placeholder key).length = key.toList.length + 4 := by
  simp only [placeholder, opening, closing, List.length_append, List.length_cons, List.length_nil]
  omega

theorem ne_of_isPlain (h : isPlain key = true) {c : Char} (hc : c ∈ key.toList) :
    c ≠ '\x7b' ∧ c ≠ '\x7d' := by
  have hall := List.all_eq_true.mp h c hc
  simpa using hall

/-- A placeholder begins with two braces. -/
theorem getElem?_of_standsAt (h : standsAt source key i = true) :
    source[i]? = some '\x7b' ∧ source[i + 1]? = some '\x7b' := by
  obtain ⟨rest, hrest⟩ := standsAt_iff.mp h
  have hdrop : ∀ k, source[i + k]? = (placeholder key ++ rest)[k]? := by
    intro k
    rw [hrest, List.getElem?_drop]
  exact ⟨hdrop 0, hdrop 1⟩

/-- After its first two characters a placeholder has no opening brace. -/
theorem getElem?_ne_of_standsAt (hplain : isPlain key = true) (h : standsAt source key i = true)
    {k : Nat} (hk : 2 ≤ k) (hlt : k < (placeholder key).length) :
    source[i + k]? ≠ some '\x7b' := by
  obtain ⟨rest, hrest⟩ := standsAt_iff.mp h
  intro hbrace
  rw [← List.getElem?_drop, ← hrest, List.getElem?_append_left hlt, placeholder,
    List.append_assoc, List.getElem?_append_right hk] at hbrace
  rcases List.mem_append.mp (List.mem_of_getElem? hbrace) with hmem | hmem
  · exact (ne_of_isPlain hplain hmem).1 rfl
  · simp [closing] at hmem

/-- A placeholder ends before the next one begins. -/
theorem standsAt_apart (hplain : isPlain key = true) (hi : standsAt source key i = true)
    (hj : standsAt source key' j = true) (hlt : i < j) : i + (placeholder key).length ≤ j := by
  by_contra hinside
  obtain ⟨hfirst, hsecond⟩ := getElem?_of_standsAt hj
  have hlength := length_placeholder key
  obtain ⟨k, rfl⟩ : ∃ k, j = i + (k + 1) := ⟨j - i - 1, by omega⟩
  cases k with
  | zero => exact getElem?_ne_of_standsAt hplain hi (Nat.le_refl 2) (by omega) hsecond
  | succ k => exact getElem?_ne_of_standsAt hplain hi (by omega) (by omega) hfirst

/-! ### The search for braces -/

theorem after?_append (part rest : List Char) : after? part (part ++ rest) = some rest := by
  induction part with
  | nil => rfl
  | cons c part ih => simp only [List.cons_append, after?, if_true, ih]

theorem after?_eq_none {part cs : List Char} (h : after? part cs = none) : ¬ part <+: cs := by
  rintro ⟨rest, rfl⟩
  rw [after?_append] at h
  cases h

/-- The first closing braces after a name are those of its placeholder. -/
theorem cut?_closing {name : List Char} (h : ∀ c ∈ name, c ≠ '\x7d') (rest : List Char) :
    cut? closing (name ++ (closing ++ rest)) = some (name, rest) := by
  induction name with
  | nil => rfl
  | cons c name ih =>
    obtain ⟨hc, hname⟩ := List.forall_mem_cons.mp h
    have hafter : after? closing (c :: (name ++ (closing ++ rest))) = none := by
      simp [closing, after?, hc.symm]
    rw [List.cons_append, cut?, hafter]
    simp only [ih hname, Option.map_some]

/-- The name after opening braces is that of the placeholder that they begin. -/
theorem cut?_of_standsAt (hplain : isPlain key = true)
    (h : standsAt (opening ++ rest) key 0 = true) :
    ∃ tail, cut? closing rest = some (key.toList, tail) := by
  obtain ⟨tail, htail⟩ := standsAt_iff.mp h
  have hrest : rest = key.toList ++ (closing ++ tail) := by
    rw [List.drop_zero, placeholder, List.append_assoc, List.append_assoc] at htail
    exact (List.append_cancel_left htail).symm
  refine ⟨tail, ?_⟩
  rw [hrest]
  exact cut?_closing (fun c hc => (ne_of_isPlain hplain hc).2) tail

/-- No two placeholders begin at one place. -/
theorem eq_of_standsAt (hplain : isPlain key = true) (hplain' : isPlain key' = true)
    (h : standsAt source key i = true) (h' : standsAt source key' i = true) : key = key' := by
  obtain ⟨tail, htail⟩ := standsAt_iff.mp h
  have hopening : source.drop i = opening ++ (key.toList ++ (closing ++ tail)) := by
    rw [← htail, placeholder, List.append_assoc, List.append_assoc]
  have hzero : ∀ k, standsAt source k i = standsAt (source.drop i) k 0 := fun _ => rfl
  rw [hzero, hopening] at h h'
  obtain ⟨tail, hcut⟩ := cut?_of_standsAt hplain h
  obtain ⟨tail', hcut'⟩ := cut?_of_standsAt hplain' h'
  rw [hcut] at hcut'
  exact String.toList_injective (Prod.mk.inj (Option.some.inj hcut')).1

/-! ### What the page shows -/

/-- The value of the placeholder that begins at the place `i`. -/
def valueFrom? (values : List (String × String)) (source : List Char) (i : Nat) : Option String :=
  values.findSome? fun (key, value) => if standsAt source key i then some value else none

/-- Whether the place `i` lies in a placeholder that begins before it. -/
def isInside (values : List (String × String)) (source : List Char) (i : Nat) : Bool :=
  (List.range i).any fun j => values.any fun (key, _) =>
    standsAt source key j && decide (i < j + (placeholder key).length)

/-- What the page shows for the place `i` of the source. -/
def shownAt (values : List (String × String)) (source : List Char) (i : Nat) : List Char :=
  match valueFrom? values source i with
  | some value => value.toList
  | none => if isInside values source i then [] else source[i]?.toList

/-- The source with every placeholder replaced. -/
def substituted (values : List (String × String)) (source : List Char) : List Char :=
  (List.range source.length).flatMap (shownAt values source)

variable {values : List (String × String)} {value : String}

theorem isInside_iff : isInside values source i = true ↔
    ∃ j, j < i ∧ ∃ v ∈ values, standsAt source v.1 j = true ∧
      i < j + (placeholder v.1).length := by
  simp only [isInside, List.any_eq_true, List.mem_range, Bool.and_eq_true, decide_eq_true_eq]

theorem valueFrom?_eq_none_iff : valueFrom? values source i = none ↔
    ∀ v ∈ values, standsAt source v.1 i = false := by
  simp only [valueFrom?, List.findSome?_eq_none_iff, ite_eq_right_iff, reduceCtorEq, imp_false,
    Bool.not_eq_true]

/-- Names without braces. -/
def ArePlain (values : List (String × String)) : Prop := ∀ v ∈ values, isPlain v.1 = true

/-- Where a placeholder begins, the value is the one that its name has. -/
theorem valueFrom?_of_standsAt (hkey : isPlain key = true) (hplain : ArePlain values)
    (h : standsAt source key i = true) : valueFrom? values source i = values.lookup key := by
  induction values with
  | nil => rfl
  | cons v values ih =>
    obtain ⟨name, value⟩ := v
    obtain ⟨hname, hplain⟩ := List.forall_mem_cons.mp hplain
    rw [valueFrom?, List.findSome?_cons, List.lookup_cons]
    by_cases heq : key = name
    · subst heq
      simp [h]
    · have hstand : standsAt source name i = false :=
        Bool.eq_false_iff.mpr fun hstand => heq (eq_of_standsAt hkey hname h hstand)
      simp only [hstand, beq_eq_false_iff_ne.mpr heq]
      exact ih hplain

/-- No placeholder crosses the border between two parts of a text. -/
def Uncrossed (values : List (String × String)) (front rest : List Char) : Prop :=
  ∀ j < front.length, ∀ v ∈ values, standsAt (front ++ rest) v.1 j = true →
    j + (placeholder v.1).length ≤ front.length

theorem standsAt_append (front rest : List Char) (key : String) (j : Nat) :
    standsAt (front ++ rest) key (front.length + j) = standsAt rest key j := by
  rw [standsAt, standsAt, List.drop_length_add_append]

theorem isInside_append (h : Uncrossed values front rest) (i : Nat) :
    isInside values (front ++ rest) (front.length + i) = isInside values rest i := by
  rw [Bool.eq_iff_iff, isInside_iff, isInside_iff]
  constructor
  · rintro ⟨j, hj, v, hv, hstand, hlt⟩
    rcases Nat.lt_or_ge j front.length with hfront | hrest
    · have hends := h j hfront v hv hstand
      omega
    · obtain ⟨k, rfl⟩ := Nat.exists_eq_add_of_le hrest
      rw [standsAt_append] at hstand
      exact ⟨k, by omega, v, hv, hstand, by omega⟩
  · rintro ⟨j, hj, v, hv, hstand, hlt⟩
    exact ⟨front.length + j, by omega, v, hv, by rwa [standsAt_append], by omega⟩

theorem shownAt_append (h : Uncrossed values front rest) (i : Nat) :
    shownAt values (front ++ rest) (front.length + i) = shownAt values rest i := by
  simp only [shownAt, valueFrom?, standsAt_append, isInside_append h,
    List.getElem?_append_right (Nat.le_add_right ..), Nat.add_sub_cancel_left]

/-- Behind a border that is not crossed, the page shows what it shows for the rest. -/
theorem substituted_append (h : Uncrossed values front rest) :
    substituted values (front ++ rest) =
      (List.range front.length).flatMap (shownAt values (front ++ rest)) ++
        substituted values rest := by
  rw [substituted, List.length_append, List.range_add, List.flatMap_append, List.flatMap_map]
  simp only [shownAt_append h, substituted]

/-- A character at which no placeholder begins is copied. -/
theorem substituted_cons {c : Char} {cs : List Char}
    (h : ∀ v ∈ values, standsAt (c :: cs) v.1 0 = false) :
    substituted values (c :: cs) = c :: substituted values cs := by
  have huncrossed : Uncrossed values [c] cs := by
    intro j hj v hv hstand
    obtain rfl : j = 0 := by simpa using hj
    rw [List.singleton_append, h v hv] at hstand
    cases hstand
  have hinside : isInside values (c :: cs) 0 = false := rfl
  have hshown : shownAt values (c :: cs) 0 = [c] := by
    rw [shownAt, valueFrom?_eq_none_iff.mpr h, hinside]
    rfl
  have happend := substituted_append huncrossed
  rw [List.singleton_append] at happend
  rw [happend]
  simp [hshown]

theorem mem_of_lookup (h : values.lookup key = some value) : (key, value) ∈ values := by
  obtain ⟨before, after, rfl, -⟩ := List.lookup_eq_some_iff.mp h
  exact List.mem_append_right _ (List.mem_cons_self ..)

theorem standsAt_placeholder (key : String) (rest : List Char) :
    standsAt (placeholder key ++ rest) key 0 = true :=
  standsAt_iff.mpr (List.prefix_append ..)

/-- No placeholder begins inside another. -/
theorem standsAt_inside (hkey : isPlain key = true) (hpos : 0 < j)
    (hj : j < (placeholder key).length) (key' : String) :
    standsAt (placeholder key ++ rest) key' j = false := by
  refine Bool.eq_false_iff.mpr fun hstand => ?_
  have hapart := standsAt_apart hkey (standsAt_placeholder key rest) hstand hpos
  omega

/-- Past its first place a placeholder shows nothing. -/
theorem shownAt_inside (hkey : isPlain key = true) (hmem : (key, value) ∈ values) (hpos : 0 < j)
    (hj : j < (placeholder key).length) : shownAt values (placeholder key ++ rest) j = [] := by
  have hnone : valueFrom? values (placeholder key ++ rest) j = none :=
    valueFrom?_eq_none_iff.mpr fun v _ => standsAt_inside hkey hpos hj v.1
  have hinside : isInside values (placeholder key ++ rest) j = true :=
    isInside_iff.mpr ⟨0, hpos, _, hmem, standsAt_placeholder key rest, by dsimp only; omega⟩
  rw [shownAt, hnone, hinside]
  rfl

/-- A placeholder is replaced by its value. -/
theorem substituted_placeholder (hplain : ArePlain values)
    (hvalue : values.lookup key = some value) :
    substituted values (placeholder key ++ rest) = value.toList ++ substituted values rest := by
  have hmem := mem_of_lookup hvalue
  have hkey : isPlain key = true := hplain _ hmem
  have hzero := standsAt_placeholder key rest
  have hlength := length_placeholder key
  have hfirst : shownAt values (placeholder key ++ rest) 0 = value.toList := by
    rw [shownAt, valueFrom?_of_standsAt hkey hplain hzero, hvalue]
  have hothers : ∀ j ∈ List.range (key.toList.length + 3),
      shownAt values (placeholder key ++ rest) (j + 1) = [] := by
    intro j hj
    have hj := List.mem_range.mp hj
    exact shownAt_inside hkey hmem (Nat.succ_pos j) (by omega)
  have huncrossed : Uncrossed values (placeholder key) rest := by
    -- only the placeholder itself begins before the border, and it ends there
    intro j hj v hv hstand
    rcases Nat.eq_zero_or_pos j with rfl | hpos
    · have hname : v.1 = key := eq_of_standsAt (hplain v hv) hkey hstand hzero
      rw [hname]
      omega
    · rw [standsAt_inside hkey hpos hj] at hstand
      cases hstand
  rw [substituted_append huncrossed, hlength, List.range_succ_eq_map, List.flatMap_cons, hfirst,
    List.flatMap_map, List.flatMap_eq_nil_iff.mpr hothers, List.append_nil]

/-! ### The search finds the placeholders -/

/-- Where there are no opening braces, no placeholder begins. -/
theorem standsAt_eq_false {cs : List Char} (h : after? opening cs = none) (key : String) :
    standsAt cs key 0 = false := by
  refine Bool.eq_false_iff.mpr fun hstand => after?_eq_none h ?_
  have hopening : opening <+: placeholder key := by
    rw [placeholder, List.append_assoc]
    exact List.prefix_append ..
  exact hopening.trans (standsAt_iff.mp hstand)

/-- A text without opening braces is copied. -/
theorem substituted_of_cut?_eq_none {cs : List Char} (h : cut? opening cs = none) :
    substituted values cs = cs := by
  induction cs with
  | nil => rfl
  | cons c cs ih =>
    rw [cut?] at h
    split at h
    next => cases h
    next hafter =>
      rw [substituted_cons fun v _ => standsAt_eq_false hafter v.1,
        ih (Option.map_eq_none_iff.mp h)]

/-- What stands before the first opening braces is copied. -/
theorem substituted_of_cut? {cs : List Char} (h : cut? opening cs = some (front, rest)) :
    substituted values cs = front ++ substituted values (opening ++ rest) := by
  induction cs generalizing front with
  | nil => cases h
  | cons c cs ih =>
    rw [cut?] at h
    split at h
    next r hafter =>
      cases h
      rw [eq_append_of_after? hafter, List.nil_append]
    next hafter =>
      obtain ⟨⟨f, r⟩, hcut, heq⟩ := Option.map_eq_some_iff.mp h
      cases heq
      rw [substituted_cons fun v _ => standsAt_eq_false hafter v.1, ih hcut, List.cons_append]

/-- A known name between braces is a placeholder. -/
theorem substituted_of_valueAt? (hplain : ArePlain values) {shown tail : List Char}
    (h : valueAt? values rest = some (shown, tail)) :
    substituted values (opening ++ rest) = shown ++ substituted values tail := by
  obtain ⟨⟨name, r⟩, hcut, h⟩ := Option.bind_eq_some_iff.mp h
  obtain ⟨value, hvalue, h⟩ := Option.bind_eq_some_iff.mp h
  cases h
  have hwhole : opening ++ rest = placeholder (String.ofList name) ++ tail := by
    rw [eq_append_of_cut? hcut, placeholder, String.toList_ofList]
    simp only [List.append_assoc]
  rw [hwhole, substituted_placeholder hplain hvalue]

/-- If the name between braces is not known, no placeholder begins with them. -/
theorem substituted_of_valueAt?_eq_none (hplain : ArePlain values)
    (h : valueAt? values rest = none) :
    substituted values (opening ++ rest) =
      '\x7b' :: substituted values ('\x7b' :: rest) := by
  refine substituted_cons fun v hv => Bool.eq_false_iff.mpr fun hstand => ?_
  obtain ⟨tail, hcut⟩ := cut?_of_standsAt (hplain v hv) hstand
  have hlookup : ∀ value, values.lookup v.1 ≠ some value := by
    simpa [valueAt?, hcut] using h
  have hother := List.lookup_eq_none_iff.mp (Option.eq_none_iff_forall_ne_some.mpr hlookup) v hv
  simp at hother

/-- Filling replaces every placeholder and copies everything else. -/
theorem fillChars_eq_substituted (hplain : ArePlain values) (cs : List Char) :
    fillChars values cs = substituted values cs := by
  fun_induction fillChars values cs with
  | case1 cs hcut => exact (substituted_of_cut?_eq_none hcut).symm
  | case2 cs front rest hcut shown tail hvalue ih =>
    rw [substituted_of_cut? hcut, substituted_of_valueAt? hplain hvalue, ih, List.append_assoc]
  | case3 cs front rest hcut hvalue ih =>
    rw [substituted_of_cut? hcut, substituted_of_valueAt?_eq_none hplain hvalue, ih]

example : substituted [("name", "A"), ("content", "B")]
    "a\x7b\x7b\x7bname\x7d\x7d\x7d\x7b\x7bx\x7b\x7bcontent\x7d\x7d\x7b\x7bname\x7d".toList =
      "a\x7bA\x7d\x7b\x7bxB\x7b\x7bname\x7d".toList := rfl

/-! ### Templates -/

theorem occursIn_iff {part : List Char} : occursIn part source = true ↔
    ∃ i, part <+: source.drop i := by
  induction source with
  | nil => simp [occursIn]
  | cons c cs ih =>
    rw [occursIn, Bool.or_eq_true, List.isPrefixOf_iff_prefix, ih]
    constructor
    · rintro (hhead | ⟨i, hi⟩)
      · exact ⟨0, hhead⟩
      · exact ⟨i + 1, hi⟩
    · rintro ⟨i, hi⟩
      cases i with
      | zero => exact .inl hi
      | succ i => exact .inr ⟨i, hi⟩

/-- A source is a template just when every placeholder stands in it. -/
theorem ofSource_eq_ok_iff {source : String} {t : Template} : ofSource source = .ok t ↔
    t.source = source ∧ ∀ key ∈ keys, ∃ i, standsAt source.toList key i = true := by
  have hall : (∀ key ∈ keys, ∃ i, standsAt source.toList key i = true) ↔
      keys.find? (fun key => !occursIn (placeholder key) source.toList) = none := by
    simp only [List.find?_eq_none, Bool.not_eq_true', Bool.not_eq_false, occursIn_iff,
      standsAt_iff]
  rw [hall, ofSource]
  cases keys.find? fun key => !occursIn (placeholder key) source.toList with
  | some key => simp
  | none =>
    cases t
    simp [eq_comm]

/-- The value of a placeholder that stands in the source stands in the page. -/
theorem infix_substituted (hplain : ArePlain values) (hvalue : values.lookup key = some value)
    (h : standsAt source key i = true) : value.toList <:+: substituted values source := by
  have hkey : isPlain key = true := hplain _ (mem_of_lookup hvalue)
  have hi : i < source.length := by
    have hfirst := (getElem?_of_standsAt h).1
    exact (List.getElem?_eq_some_iff.mp hfirst).1
  have hshown : shownAt values source i = value.toList := by
    rw [shownAt, valueFrom?_of_standsAt hkey hplain h, hvalue]
  rw [substituted, List.flatMap_def, ← hshown]
  exact List.infix_of_mem_flatten (List.mem_map_of_mem (List.mem_range.mpr hi))

theorem isPlain_of_mem_keys (h : key ∈ keys) : isPlain key = true :=
  List.all_eq_true.mp (rfl : keys.all isPlain = true) key h

theorem arePlain_values (name content : String) :
    ArePlain [("name", name), ("content", content)] := by
  intro v hv
  refine isPlain_of_mem_keys ?_
  rcases List.mem_cons.mp hv with rfl | hv
  · exact List.mem_cons_self ..
  · rw [List.mem_singleton.mp hv]
    exact List.mem_cons_of_mem _ (List.mem_cons_self ..)

theorem toList_fill (t : Template) (name content : String) : (t.fill name content).toList =
    substituted [("name", name), ("content", content)] t.source.toList := by
  rw [fill, String.toList_ofList, fillChars_eq_substituted (arePlain_values name content)]

/-- The placeholders of a source never overlap, and filling replaces them all at once: the page is
the source with the two values in their places. In the page of a template both can be found. -/
theorem fill_simultaneous (source name content : String) :
    (∀ key ∈ keys, ∀ key' ∈ keys, ∀ i j, standsAt source.toList key i = true →
      standsAt source.toList key' j = true →
      i = j ∧ key = key' ∨ i + (placeholder key).length ≤ j ∨
        j + (placeholder key').length ≤ i) ∧
    (fill ⟨source⟩ name content).toList =
      substituted [("name", name), ("content", content)] source.toList ∧
    ∀ t, ofSource source = .ok t →
      name.toList <:+: (t.fill name content).toList ∧
        content.toList <:+: (t.fill name content).toList := by
  refine ⟨?_, toList_fill _ name content, ?_⟩
  · intro key hkey key' hkey' i j hi hj
    have hplain := isPlain_of_mem_keys hkey
    have hplain' := isPlain_of_mem_keys hkey'
    rcases Nat.lt_trichotomy i j with hlt | rfl | hlt
    · exact .inr (.inl (standsAt_apart hplain hi hj hlt))
    · exact .inl ⟨rfl, eq_of_standsAt hplain hplain' hi hj⟩
    · exact .inr (.inr (standsAt_apart hplain' hj hi hlt))
  · intro t ht
    obtain ⟨rfl, hkeys⟩ := ofSource_eq_ok_iff.mp ht
    obtain ⟨i, hi⟩ := hkeys "name" (List.mem_cons_self ..)
    obtain ⟨j, hj⟩ := hkeys "content" (List.mem_cons_of_mem _ (List.mem_cons_self ..))
    have hplain := arePlain_values name content
    rw [toList_fill]
    exact ⟨infix_substituted hplain rfl hi, infix_substituted hplain rfl hj⟩

/-- Placeholders with a brace too many, or a pair of them. -/
def sampleSource : String :=
  "\x7b\x7b\x7bname\x7d\x7d\x7d\x7b\x7b\x7b\x7bcontent\x7d\x7d"

/-- The sample source with a name that looks like a placeholder. -/
theorem fill_simultaneous_sample :
    ∃ t, ofSource sampleSource = .ok t ∧
      "\x7b\x7bcontent\x7d\x7d".toList <:+:
          (t.fill "\x7b\x7bcontent\x7d\x7d" "body").toList ∧
        "body".toList <:+: (t.fill "\x7b\x7bcontent\x7d\x7d" "body").toList :=
  ⟨⟨sampleSource⟩, rfl, (fill_simultaneous sampleSource _ _).2.2 _ rfl⟩

end WallCalendar.Template
