import Mathlib.Data.List.Forall2
import WallCalendar.Agenda.Document
import WallCalendar.Proofs.Except
import WallCalendar.Proofs.Json.Draft
import WallCalendar.Proofs.Text.Blank

/-!
Documents are read back.

An agenda that is written is read back in normal form: every field that is written is read as it
stands, those left out are read as absent, and only then are blanks dropped. What is read is in
normal form already, so to write it and read it again changes nothing.
-/

namespace WallCalendar

open WallCalendar.Json

/-! ### Normal form -/

/-- The optional text `s` unless it is blank. -/
def unlessBlank (s : Option String) : Option String := s.filter fun s => !Text.isBlankText s

/-- `n` says what `e` says, less what means nothing by itself. -/
structure Entry.IsNormalOf (n e : Entry) : Prop where
  title : n.title = e.title
  startAt : Text.IsTrimOf n.startAt e.startAt
  endAt : Text.IsTrimOf n.endAt e.endAt
  description : n.description = unlessBlank e.description
  url : n.url = unlessBlank e.url
  imageUrl : n.imageUrl = unlessBlank e.imageUrl
  categories : List.Forall₂ Text.IsTrimOf n.categories
    (e.categories.filter fun s => !Text.isBlankText s)

/-- `n` has the name of `a` and its entries in normal form. -/
structure Agenda.IsNormalOf (n a : Agenda) : Prop where
  name : n.name = a.name
  entries : List.Forall₂ Entry.IsNormalOf n.entries a.entries

theorem bind_nonBlank (s : Option String) : s.bind Text.nonBlank = unlessBlank s := by
  cases s with
  | none => rfl
  | some s =>
    cases h : Text.isBlankText s <;> simp [unlessBlank, Text.nonBlank, Option.filter_some, h]

/-- It does not matter whether blank categories are dropped before or after trimming. -/
theorem normalCategories_eq (categories : List String) :
    normalCategories categories =
      (categories.filter fun s => !Text.isBlankText s).map Text.trim := by
  rw [normalCategories, List.filter_map]
  refine congrArg _ (List.filter_congr fun s _ => ?_)
  rw [Function.comp_apply, Bool.eq_iff_iff]
  simp [Text.trim_eq_empty_iff]

theorem Entry.isNormalOf_normal (e : Entry) : e.normal.IsNormalOf e where
  title := rfl
  startAt := Text.isTrimOf_trim _
  endAt := Text.isTrimOf_trim _
  description := bind_nonBlank _
  url := bind_nonBlank _
  imageUrl := bind_nonBlank _
  categories := by
    rw [Entry.normal, normalCategories_eq, List.forall₂_map_left_iff, List.forall₂_same]
    exact fun s _ => Text.isTrimOf_trim s

theorem Agenda.isNormalOf_normal (a : Agenda) : a.normal.IsNormalOf a where
  name := rfl
  entries := by
    rw [Agenda.normal, List.forall₂_map_left_iff, List.forall₂_same]
    exact fun e _ => e.isNormalOf_normal

theorem normalCategories_normalCategories (categories : List String) :
    normalCategories (normalCategories categories) = normalCategories categories := by
  have htrimmed : (normalCategories categories).map Text.trim = normalCategories categories := by
    rw [← List.map_id (normalCategories categories), List.map_map]
    refine List.map_congr_left fun c hc => ?_
    obtain ⟨d, -, rfl⟩ := List.mem_map.mp (List.mem_filter.mp hc).1
    exact Text.trim_trim d
  rw [normalCategories, htrimmed, normalCategories, List.filter_filter]
  simp

@[simp] theorem Entry.normal_normal (e : Entry) : e.normal.normal = e.normal := by
  simp [Entry.normal, normalCategories_normalCategories]

@[simp] theorem Agenda.normal_normal (a : Agenda) : a.normal.normal = a.normal := by
  simp [Agenda.normal]

/-! ### Reading what is written -/

namespace Document

theorem draftItems_eq_map (items : List Value) : draftItems items = items.map Value.draft := by
  induction items with
  | nil => rfl
  | cons item items ih => simp [draftItems, ih]

theorem draftFields_append (xs ys : List (String × Value)) :
    draftFields (xs ++ ys) = draftFields xs ++ draftFields ys := by
  induction xs with
  | nil => rfl
  | cons x xs ih => simp [draftFields, ih]

/-- Written items are read one by one. -/
theorem mapM_draftItems {α : Type} {read : Draft → Except DocumentError α} {write : α → Value}
    (h : ∀ x, read (write x).draft = .ok x) (xs : List α) :
    (draftItems (xs.map write)).mapM read = .ok xs := by
  rw [draftItems_eq_map, List.map_map, mapM_eq_ok_iff, List.forall₂_map_left_iff, List.forall₂_same]
  exact fun x _ => h x

theorem readTexts_draft (texts : List String) :
    readTexts (Value.list (texts.map Value.text)).draft = .ok texts :=
  mapM_draftItems (fun _ => rfl) texts

namespace EntryFields

/-- Reading written fields one by one takes what has been read from `f` to `f'`. -/
def Reads (f : EntryFields) (fields : List (String × Value)) (f' : EntryFields) : Prop :=
  (draftFields fields).foldlM step f = .ok f'

variable {f f' f'' : EntryFields} {xs ys : List (String × Value)}

theorem Reads.single {key : String} {v : Value} (h : step f (some key, v.draft) = .ok f') :
    Reads f [(key, v)] f' := by
  rw [Reads, draftFields, draftFields, List.foldlM_cons, h]
  rfl

theorem Reads.append (hxs : Reads f xs f') (hys : Reads f' ys f'') : Reads f (xs ++ ys) f'' := by
  rw [Reads, draftFields_append, List.foldlM_append, hxs]
  exact hys

/-- A text that may be left out is read if it is there. -/
theorem reads_textField {key : String} (set : Option (Option String) → EntryFields)
    (hnone : set none = f)
    (hsome : ∀ s, step f (some key, (Value.text s).draft) = .ok (set (some (some s))))
    (s : Option String) : Reads f (textField key s) (set (s.map some)) := by
  cases s with
  | none => exact congrArg Except.ok hnone.symm
  | some s => exact Reads.single (hsome s)

/-- The fields of a written entry are read as they are, those left out staying open. -/
theorem reads_entryValue (e : Entry) :
    ∃ fields, entryValue e = .object fields ∧ Reads {} fields
      { title := some e.title
        startAt := some e.startAt
        endAt := some e.endAt
        description := e.description.map some
        url := e.url.map some
        imageUrl := e.imageUrl.map some
        categories := if e.categories.isEmpty then none else some e.categories } := by
  let required : EntryFields :=
    { title := some e.title, startAt := some e.startAt, endAt := some e.endAt }
  let described := { required with description := e.description.map some }
  let linked := { described with url := e.url.map some }
  let pictured := { linked with imageUrl := e.imageUrl.map some }
  have hrequired : Reads {} [("title", .text e.title), ("startAt", .text e.startAt),
      ("endAt", .text e.endAt)] required := rfl
  have hdescription : Reads required (textField "description" e.description) described :=
    reads_textField (fun v => { required with description := v }) rfl (fun _ => rfl) _
  have hurl : Reads described (textField "url" e.url) linked :=
    reads_textField (fun v => { described with url := v }) rfl (fun _ => rfl) _
  have himageUrl : Reads linked (textField "imageUrl" e.imageUrl) pictured :=
    reads_textField (fun v => { linked with imageUrl := v }) rfl (fun _ => rfl) _
  refine ⟨_, rfl, (((hrequired.append hdescription).append hurl).append himageUrl).append ?_⟩
  split
  · rfl
  · have hread : readCategories (Value.list (e.categories.map .text)).draft = .ok e.categories :=
      readTexts_draft e.categories
    refine Reads.single ?_
    show (fill "categories" none readCategories _).map _ = _
    rw [fill, hread]
    rfl

end EntryFields

/-- A written entry is read back. -/
theorem readEntry_draft (e : Entry) : readEntry (entryValue e).draft = .ok e := by
  obtain ⟨fields, hfields, hreads⟩ := EntryFields.reads_entryValue e
  have hjoin : ∀ s : Option String, (s.map some).join = s := by rintro (_ | _) <;> rfl
  have hcategories : (if e.categories.isEmpty then none else some e.categories).getD [] =
      e.categories := by cases e.categories <;> rfl
  rw [hfields, Value.draft, readEntry]
  refine bind_eq_ok_iff.mpr ⟨_, hreads, ?_⟩
  simp only [EntryFields.entry, require, hjoin, hcategories]
  rfl

theorem readEntries_draft (entries : List Entry) :
    readEntries (Value.list (entries.map entryValue)).draft = .ok entries :=
  mapM_draftItems readEntry_draft entries

/-- A written agenda is read back. -/
theorem readAgenda_draft (a : Agenda) : readAgenda (agendaValue a).draft = .ok a := by
  have hstep : AgendaFields.step { name := some a.name }
      (some "events", (Value.list (a.entries.map entryValue)).draft) =
      .ok { name := some a.name, entries := some a.entries } := by
    show (fill "events" none readEntries _).map _ = _
    rw [fill, readEntries_draft]
    rfl
  have hfields : (draftFields [("name", .text a.name),
      ("events", .list (a.entries.map entryValue))]).foldlM AgendaFields.step {} =
      .ok { name := some a.name, entries := some a.entries } :=
    bind_eq_ok_iff.mpr ⟨_, rfl, bind_eq_ok_iff.mpr ⟨_, hstep, rfl⟩⟩
  rw [agendaValue, Value.draft, readAgenda, hfields]
  rfl

end Document

namespace Agenda

/-- What is written, blanks after it aside, is read back in normal form. -/
theorem ofText_text_append (a : Agenda) {s : String} (h : ∀ c ∈ s.toList, isSpace c = true) :
    ofText (a.text ++ s) = .ok a.normal := by
  rw [ofText, text, Draft.read_pretty_append _ h]
  simp only [Document.readAgenda_draft, if_true]

theorem ofText_text (a : Agenda) : ofText a.text = .ok a.normal := by
  rw [← String.append_empty (s := a.text)]
  exact ofText_text_append a (by simp)

/-- What is read is in normal form. -/
theorem normal_of_ofText {s : String} {a : Agenda} (h : ofText s = .ok a) : a.normal = a := by
  unfold ofText at h
  simp only at h
  split at h
  · cases h
  · split at h
    · cases h
      exact normal_normal _
    · cases h

/-- A document that is read can be written and read again. -/
theorem ofText_text_of_ofText {s : String} {a : Agenda} (h : ofText s = .ok a) :
    ofText a.text = .ok a := by
  rw [ofText_text, normal_of_ofText h]

/-- What is written is read back in normal form, and for what has been read that is the same. -/
theorem text_read_back :
    (∀ a : Agenda, ofText a.text = .ok a.normal ∧ a.normal.IsNormalOf a) ∧
    ∀ s a, ofText s = .ok a → a.normal = a ∧ ofText a.text = .ok a :=
  ⟨fun a => ⟨ofText_text a, a.isNormalOf_normal⟩,
    fun _ _ h => ⟨normal_of_ofText h, ofText_text_of_ofText h⟩⟩

/-- An agenda with blanks to drop and a control character to escape. -/
def sampleAgenda : Agenda :=
  ⟨"Plans\x0b", [{ title := "Talk", startAt := " 2025-03-10", endAt := "2025-03-11\n",
                   description := some " ", imageUrl := some " x ", categories := [" ", "a "] }]⟩

/-- The agenda without them. -/
def sampleNormal : Agenda :=
  ⟨"Plans\x0b", [{ title := "Talk", startAt := "2025-03-10", endAt := "2025-03-11",
                   imageUrl := some " x ", categories := ["a"] }]⟩

theorem text_read_back_sample :
    ofText sampleAgenda.text = .ok sampleNormal ∧ sampleNormal.normal = sampleNormal ∧
      ofText sampleNormal.text = .ok sampleNormal := by
  have hnormal : sampleAgenda.normal = sampleNormal := by decide
  have hread : ofText sampleAgenda.text = .ok sampleNormal :=
    hnormal ▸ (text_read_back.1 sampleAgenda).1
  exact ⟨hread, text_read_back.2 _ _ hread⟩

end Agenda

end WallCalendar
