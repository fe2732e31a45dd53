import WallCalendar.Proofs.Markup.Escape

/-!
Escaped texts can be read back.

Every entity begins with an ampersand and holds no other one. In an escaped text an ampersand
therefore always begins an entity, and a reader that goes from left to right finds the entities just
where they were put in. It gets the text back, also one that looked escaped before.
-/

namespace WallCalendar.Markup

/-! ### Reading -/

/-- The character whose entity a text begins with, and what follows the entity. -/
def entityAt? (cs : List Char) : Option (Char × List Char) :=
  entities.findSome? fun e => (cs.dropPrefix? e.2.toList).map fun rest => (e.1, rest)

/-- An ampersand stands at the front of an entity and nowhere else in it. -/
theorem exists_eq_ampersand_cons {e : Char × String} (he : e ∈ entities) :
    ∃ tail, e.2.toList = '&' :: tail ∧ '&' ∉ tail := by
  simp only [entities, List.mem_cons, List.not_mem_nil, or_false] at he
  rcases he with rfl | rfl | rfl | rfl | rfl <;> exact ⟨_, rfl, by decide⟩

theorem length_of_entityAt? {cs rest : List Char} {c : Char} (h : entityAt? cs = some (c, rest)) :
    rest.length < cs.length := by
  obtain ⟨e, he, hdrop⟩ := List.exists_of_findSome?_eq_some h
  obtain ⟨after, hafter, heq⟩ := Option.map_eq_some_iff.mp hdrop
  cases heq
  obtain ⟨front, rfl, hfront⟩ := List.dropPrefix?_eq_some_iff.mp hafter
  obtain ⟨tail, htail, -⟩ := exists_eq_ampersand_cons he
  rw [eq_of_beq hfront, htail, List.length_append, List.length_cons]
  omega

/-- Reads a text from left to right: an entity as its character, and any other character as it
stands. -/
def unescapeChars (cs : List Char) : List Char :=
  match h : entityAt? cs with
  | some (c, rest) =>
    have := length_of_entityAt? h
    c :: unescapeChars rest
  | none =>
    match cs with
    | [] => []
    | c :: cs => c :: unescapeChars cs
termination_by cs.length

/-- The text that an escaped text was made from. -/
def unescape (s : String) : String := String.ofList (unescapeChars s.toList)

/-- No entity begins another. -/
theorem entities_apart {e e' : Char × String} (he : e ∈ entities) (he' : e' ∈ entities)
    (h : e.2.toList <+: e'.2.toList) : e = e' := by
  have hall : entities.all (fun e => entities.all fun e' =>
      !e.2.toList.isPrefixOf e'.2.toList || e == e') = true := rfl
  have hone := List.all_eq_true.mp (List.all_eq_true.mp hall e he) e' he'
  rw [List.isPrefixOf_iff_prefix.mpr h] at hone
  exact eq_of_beq hone

theorem entityAt?_append {e : Char × String} (he : e ∈ entities) (cs : List Char) :
    entityAt? (e.2.toList ++ cs) = some (e.1, cs) := by
  have hdrop : (e.2.toList ++ cs).dropPrefix? e.2.toList = some cs :=
    List.dropPrefix?_append_of_beq cs (beq_self_eq_true _)
  cases h : entityAt? (e.2.toList ++ cs) with
  | none =>
    have hnone := List.findSome?_eq_none_iff.mp h e he
    rw [hdrop] at hnone
    cases hnone
  | some found =>
    obtain ⟨e', he', hfound⟩ := List.exists_of_findSome?_eq_some h
    obtain ⟨rest, hrest, rfl⟩ := Option.map_eq_some_iff.mp hfound
    obtain ⟨front, hsplit, hfront⟩ := List.dropPrefix?_eq_some_iff.mp hrest
    rw [eq_of_beq hfront] at hsplit
    have heq : e' = e := by
      rcases List.prefix_or_prefix_of_prefix ⟨rest, hsplit.symm⟩ (List.prefix_append ..) with
        hle | hle
      · exact entities_apart he' he hle
      · exact (entities_apart he he' hle).symm
    rw [heq] at hrest ⊢
    rw [hdrop] at hrest
    cases hrest
    rfl

theorem entityAt?_cons_eq_none {c : Char} (h : c ≠ '&') (cs : List Char) :
    entityAt? (c :: cs) = none := by
  rw [entityAt?, List.findSome?_eq_none_iff]
  intro e he
  obtain ⟨tail, htail, -⟩ := exists_eq_ampersand_cons he
  rw [htail, List.dropPrefix?, if_neg (by simpa using h), Option.map_none]

theorem unescapeChars_nil : unescapeChars [] = [] := by
  rw [unescapeChars]
  rfl

theorem unescapeChars_of_entityAt? {cs rest : List Char} {c : Char}
    (h : entityAt? cs = some (c, rest)) : unescapeChars cs = c :: unescapeChars rest := by
  rw [unescapeChars]
  split
  next heq => rw [h] at heq; cases heq; rfl
  next heq => rw [h] at heq; cases heq

theorem unescapeChars_cons {c : Char} (h : c ≠ '&') (cs : List Char) :
    unescapeChars (c :: cs) = c :: unescapeChars cs := by
  have hnone := entityAt?_cons_eq_none h cs
  rw [unescapeChars]
  split
  next heq => rw [hnone] at heq; cases heq
  next => rfl

/-- What a character was escaped as is read as the character. -/
theorem unescapeChars_entity_append (c : Char) (cs : List Char) :
    unescapeChars (entity c ++ cs) = c :: unescapeChars cs := by
  rcases entity_eq_or c with ⟨e, he, rfl, hentity⟩ | ⟨hne, hself⟩
  · rw [hentity]
    exact unescapeChars_of_entityAt? (entityAt?_append he cs)
  · rw [hself]
    exact unescapeChars_cons (hne ('&', "&amp;") (by decide)) cs

/-- An escaped text is read back. -/
theorem unescapeChars_escapeChars (cs : List Char) : unescapeChars (escapeChars cs) = cs := by
  induction cs with
  | nil => exact unescapeChars_nil
  | cons c cs ih => rw [escapeChars_cons, unescapeChars_entity_append, ih]

theorem unescape_escape (s : String) : unescape (escape s) = s := by
  rw [unescape, escape, String.toList_ofList, unescapeChars_escapeChars, String.ofList_toList]

/-! ### Ampersands -/

/-- An ampersand that a character brings in begins the entity of the character. -/
theorem entity_eq_of_ampersand {c : Char} {before after : List Char}
    (h : entity c = before ++ '&' :: after) : ∃ e ∈ entities, e.2.toList = '&' :: after := by
  rcases entity_eq_or c with ⟨e, he, -, hentity⟩ | ⟨hne, hself⟩
  · obtain ⟨tail, htail, hnot⟩ := exists_eq_ampersand_cons he
    rw [hentity, htail, List.cons_eq_append_iff] at h
    rcases h with ⟨-, heq⟩ | ⟨front, -, heq⟩
    · exact ⟨e, he, by rw [htail, heq]⟩
    · exact absurd (heq ▸ List.mem_append_right _ (List.mem_cons_self ..)) hnot
  · have hmem : '&' ∈ entity c := h ▸ List.mem_append_right _ (List.mem_cons_self ..)
    rw [hself, List.mem_singleton] at hmem
    exact absurd hmem.symm (hne ('&', "&amp;") (by decide))

/-- Every ampersand of an escaped text begins an entity. -/
theorem ampersand_begins_entity {cs before after : List Char}
    (h : escapeChars cs = before ++ '&' :: after) :
    ∃ e ∈ entities, e.2.toList <+: '&' :: after := by
  induction cs generalizing before with
  | nil =>
    rw [escapeChars_eq_flatMap, List.flatMap_nil] at h
    exact absurd h.symm (by simp)
  | cons c cs ih =>
    rw [escapeChars_cons, List.append_eq_append_iff] at h
    rcases h with ⟨front, -, hrest⟩ | ⟨inside, hentity, hrest⟩
    · exact ih hrest
    · cases inside with
      | nil => exact ih (hrest.symm.trans (List.nil_append _).symm)
      | cons d inside =>
        obtain ⟨rfl, rfl⟩ := List.cons.inj hrest
        obtain ⟨e, he, heq⟩ := entity_eq_of_ampersand hentity
        exact ⟨e, he, heq ▸ List.prefix_append ..⟩

/-! ### All at once -/

/-- The characters that have an entity. -/
def special : List Char := ['&', '<', '>', '\"', '\x27']

theorem entity_fst {e : Char × String} (he : e ∈ entities) :
    e.1 ∈ special ∧ entity e.1 = e.2.toList := by
  simp only [entities, List.mem_cons, List.not_mem_nil, or_false] at he
  rcases he with rfl | rfl | rfl | rfl | rfl <;> exact ⟨by decide, rfl⟩

theorem entity_eq_self {c : Char} (h : c ∉ special) : entity c = [c] := by
  rcases entity_eq_or c with ⟨e, he, rfl, -⟩ | ⟨-, hself⟩
  · exact absurd (entity_fst he).1 h
  · exact hself

/-- Escaping replaces each special character by its entity and leaves every other one alone, so
texts can be escaped piece by piece. An escaped text holds no delimiter, every ampersand in it
begins an entity, and reading the entities from left to right gives the text back: no two texts are
escaped alike. -/
theorem escape_single_pass (s t : String) :
    (escape s).toList = s.toList.flatMap entity ∧
    (entity '&' = "&amp;".toList ∧ entity '<' = "&lt;".toList ∧ entity '>' = "&gt;".toList ∧
      entity '\"' = "&quot;".toList ∧ entity '\x27' = "&#39;".toList) ∧
    (∀ c, c ∉ special → entity c = [c]) ∧
    escape (s ++ t) = escape s ++ escape t ∧
    (∀ c ∈ ['<', '>', '\"', '\x27'], c ∉ (escape s).toList) ∧
    (∀ before after, (escape s).toList = before ++ '&' :: after →
      ∃ c ∈ special, entity c <+: '&' :: after) ∧
    unescape (escape s) = s ∧
    (escape s = escape t ↔ s = t) := by
  refine ⟨?_, ⟨rfl, rfl, rfl, rfl, rfl⟩, ?_, ?_, ?_, ?_, unescape_escape s, ?_⟩
  · rw [escape, String.toList_ofList, escapeChars_eq_flatMap]
  · exact fun c => entity_eq_self
  · rw [escape, escape, escape, String.toList_append, escapeChars_append, String.ofList_append]
  · intro c hc hmem
    rw [escape, String.toList_ofList] at hmem
    have hdelimiter : isDelimiter c = true := decide_eq_true hc
    rw [isDelimiter_of_mem_escapeChars hmem] at hdelimiter
    cases hdelimiter
  · intro before after h
    rw [escape, String.toList_ofList] at h
    obtain ⟨e, he, hprefix⟩ := ampersand_begins_entity h
    obtain ⟨hspecial, hentity⟩ := entity_fst he
    exact ⟨e.1, hspecial, hentity ▸ hprefix⟩
  · refine ⟨fun h => ?_, congrArg escape⟩
    rw [← unescape_escape s, h, unescape_escape]

/-- A text that looks escaped already, and a tag after it. -/
theorem escape_single_pass_sample :
    (escape "&lt;").toList = "&amp;lt;".toList ∧
    escape ("&lt;" ++ "<b>") = escape "&lt;" ++ escape "<b>" ∧
    entity 'l' = ['l'] ∧ '<' ∉ (escape "&lt;").toList ∧
    (∃ c ∈ special, entity c <+: "&amp;lt;".toList) ∧
    unescape (escape "&lt;") = "&lt;" ∧ escape "&lt;" ≠ escape "<b>" := by
  obtain ⟨hmap, -, hself, happend, hnone, hampersand, hback, hinj⟩ :=
    escape_single_pass "&lt;" "<b>"
  have htext : (escape "&lt;").toList = "&amp;lt;".toList := hmap
  refine ⟨htext, happend, hself 'l' (by decide), hnone '<' (by decide), ?_, hback, ?_⟩
  · exact hampersand [] "amp;lt;".toList htext
  · exact fun h => absurd (hinj.mp h) (by decide)

end WallCalendar.Markup
