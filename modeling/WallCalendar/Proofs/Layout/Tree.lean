import WallCalendar.Layout.Page
import WallCalendar.Proofs.Layout.Basic
import WallCalendar.Proofs.Markup.Tree
import WallCalendar.Proofs.Text.Decimal

/-!
The page of a layout as a tree.

The page is put together from tags and texts, and it writes a tree: every tag that a block opens it
closes again. The tree is proper. What an event says about itself is escaped where it is put in, and
numbers, dates, times, classes and styles are plain by themselves. The label of a day is written as
it is, so a page can only be trusted where its labels are plain; those of a layout made from events
are.
-/

namespace WallCalendar

open WallCalendar.Markup WallCalendar.Markup.Node WallCalendar.Text

/-! ### Texts that are plain by themselves -/

theorem Markup.isPlain_ofList {cs : List Char} :
    isPlain (String.ofList cs) = cs.all (!isDelimiter ·) := by
  rw [isPlain, String.toList_ofList]

theorem Markup.isDelimiter_of_isDigit {c : Char} (h : c.isDigit = true) : isDelimiter c = false := by
  by_contra hd
  simp only [isDelimiter, Bool.not_eq_false, decide_eq_true_eq, List.mem_cons, List.not_mem_nil,
    or_false] at hd
  rcases hd with rfl | rfl | rfl | rfl <;> revert h <;> decide

/-- Digits are no delimiters. -/
theorem Markup.all_of_isDigit {ds : List Char} (h : ∀ c ∈ ds, c.isDigit = true) :
    ds.all (!isDelimiter ·) = true := by
  rw [List.all_eq_true]
  intro c hc
  rw [isDelimiter_of_isDigit (h c hc)]
  rfl

theorem Text.all_fixed (w n : Nat) : (fixed w n).all (!isDelimiter ·) = true :=
  all_of_isDigit (isDigit_of_mem_fixed w n)

theorem Text.isPlain_natText (n : Nat) : isPlain (natText n) = true := by
  rw [natText, isPlain_ofList]
  exact all_of_isDigit (isDigit_of_mem_decimal n)

theorem Text.isPlain_intText (n : Int) : isPlain (intText n) = true := by
  have hdigits := all_of_isDigit (isDigit_of_mem_decimal n.natAbs)
  rw [intText, isPlain_ofList, integer]
  split
  · rw [List.all_cons, hdigits]; rfl
  · exact hdigits

theorem Date.all_isoChars (d : Date) : d.isoChars.all (!isDelimiter ·) = true := by
  have hyear : (yearChars d.civil.year).all (!isDelimiter ·) = true := by
    unfold yearChars
    split
    · exact all_fixed ..
    · rw [List.all_cons, all_of_isDigit (isDigit_of_mem_padded 4 _)]
      split <;> rfl
  simp only [isoChars, List.all_append, List.all_cons, hyear, all_fixed]
  rfl

theorem Date.isPlain_iso (d : Date) : isPlain d.iso = true := by
  rw [iso, isPlain_ofList, all_isoChars]

theorem Moment.isPlain_isoMinute (m : Moment) : isPlain m.isoMinute = true := by
  rw [isoMinute, isPlain_ofList, TimeOfDay.clockChars]
  simp only [List.all_append, List.all_cons, Date.all_isoChars, all_fixed]
  rfl

theorem TimeOfDay.isPlain_brief (t : TimeOfDay) : isPlain t.brief = true := by
  have hminutes : (if t.minute = 0 then [] else ':' :: fixed 2 t.minute).all (!isDelimiter ·) =
      true := by
    split
    · rfl
    · rw [List.all_cons, all_fixed]; rfl
  unfold brief
  split
  · decide
  · rw [isPlain_append, isPlain_append, isPlain_natText, isPlain_ofList, hminutes]
    split <;> decide

theorem Date.isPlain_monthDay (d : Date) : isPlain d.monthDay = true := by
  have hname : isPlain ((monthNames[d.civil.month - 1]?).getD "") = true := by
    cases h : monthNames[d.civil.month - 1]? with
    | none => decide
    | some name =>
      have hall : monthNames.all isPlain = true := by decide
      exact List.all_eq_true.mp hall name (List.mem_of_getElem? h)
  rw [monthDay, isPlain_append, isPlain_append, hname, isPlain_natText]
  decide

theorem DayCell.isPlain_labelOf (ord : Int) (date : Date) : isPlain (labelOf ord date) = true := by
  unfold labelOf
  split
  · exact date.isPlain_monthDay
  · exact isPlain_natText _

theorem DayCell.isPlain_cls (d : DayCell) : isPlain d.cls = true := by
  unfold cls
  split <;> decide

theorem Segment.isPlain_cls (s : Segment) : isPlain s.cls = true := by
  unfold cls
  cases s.continuesBefore <;> cases s.continuesAfter <;> decide

theorem DayCell.isPlain_style (d : DayCell) : isPlain d.style = true := by
  unfold style
  simp only [isPlain_append, isPlain_intText]
  decide

theorem Segment.isPlain_style (s : Segment) : isPlain s.style = true := by
  unfold style
  simp only [isPlain_append, isPlain_intText, isPlain_natText]
  decide

theorem Layout.isPlain_style (l : Layout) : isPlain l.style = true := by
  unfold style
  simp only [isPlain_append, isPlain_natText]
  decide

/-! ### Events -/

namespace Event

/-- The title as nodes. -/
def titleNodes (e : Event) : List Node :=
  match e.details.url with
  | some url => [.element "a" [("href", escape url)] [.text (escape e.title)]]
  | none => [.text (escape e.title)]

/-- The headline as nodes. -/
def headlineNodes (e : Event) : List Node :=
  match e.span with
  | .days .. => e.titleNodes
  | .moments start _ =>
    .element "time" [("datetime", start.isoMinute)] [.text start.time.brief] ::
      .text " " :: e.titleNodes

/-- The picture as nodes. -/
def pictureNodes (e : Event) : List Node :=
  match e.details.imageUrl with
  | some url => [.empty "img" [("src", escape url), ("alt", ""), ("loading", "lazy")]]
  | none => []

/-- The block of an event as nodes. -/
def nodes (e : Event) (cls : String) (style : Option String) : List Node :=
  [.element "div" (e.attributes cls style) (e.pictureNodes ++ e.headlineNodes), .text "\n"]

theorem writeAll_titleNodes (e : Event) : writeAll e.titleNodes = e.linkedTitle := by
  unfold titleNodes linkedTitle
  cases e.details.url <;> simp [writeAll, write]

theorem writeAll_headlineNodes (e : Event) : writeAll e.headlineNodes = e.headline := by
  unfold headlineNodes headline
  cases e.span <;> simp [writeAll, write, writeAll_titleNodes, String.append_assoc]

theorem writeAll_pictureNodes (e : Event) : writeAll e.pictureNodes = e.picture := by
  unfold pictureNodes picture
  cases e.details.imageUrl <;> simp [writeAll, write]

theorem writeAll_nodes (e : Event) (cls : String) (style : Option String) :
    writeAll (e.nodes cls style) = e.block cls style := by
  simp [nodes, block, writeAll, write, writeAll_append, writeAll_pictureNodes,
    writeAll_headlineNodes, String.append_assoc]

theorem areProper_titleNodes (e : Event) : areProper e.titleNodes = true := by
  unfold titleNodes
  split <;>
    simp only [areProper, isProper, tagOk, List.all_cons, List.all_nil, isPlain_escape] <;>
    decide

theorem areProper_headlineNodes (e : Event) : areProper e.headlineNodes = true := by
  unfold headlineNodes
  split
  · exact e.areProper_titleNodes
  · simp only [areProper, isProper, tagOk, List.all_cons, List.all_nil, areProper_titleNodes,
      Moment.isPlain_isoMinute, TimeOfDay.isPlain_brief]
    decide

theorem areProper_pictureNodes (e : Event) : areProper e.pictureNodes = true := by
  unfold pictureNodes
  split <;>
    simp only [areProper, isProper, tagOk, List.all_cons, List.all_nil, isPlain_escape]
  decide

theorem tagOk_attributes (e : Event) {cls : String} {style : Option String}
    (hcls : isPlain cls = true) (hstyle : ∀ s ∈ style, isPlain s = true) :
    tagOk "div" (e.attributes cls style) = true := by
  refine tagOk_iff.mpr ⟨by decide, fun a ha => ?_⟩
  simp only [attributes, List.mem_append, List.mem_cons, List.not_mem_nil, or_false] at ha
  rcases ha with ((rfl | rfl) | hstyled) | hcategorized
  · exact ⟨show isName "class" = true by decide, hcls⟩
  · exact ⟨show isName "title" = true by decide, isPlain_escape _⟩
  · cases style with
    | none => cases hstyled
    | some s =>
      cases List.mem_singleton.mp hstyled
      exact ⟨show isName "style" = true by decide, hstyle s rfl⟩
  · split at hcategorized
    · cases hcategorized
    · cases List.mem_singleton.mp hcategorized
      exact ⟨show isName "data-categories" = true by decide, isPlain_escape _⟩

theorem areProper_nodes (e : Event) {cls : String} {style : Option String}
    (hcls : isPlain cls = true) (hstyle : ∀ s ∈ style, isPlain s = true) :
    areProper (e.nodes cls style) = true := by
  simp only [nodes, areProper, isProper, areProper_append, areProper_pictureNodes,
    areProper_headlineNodes, e.tagOk_attributes hcls hstyle]
  decide

end Event

/-! ### Days and segments -/

namespace DayCell

/-- The space that a day keeps clear, as nodes. -/
def spaceNodes (d : DayCell) : List Node :=
  if d.reservedLanes = 0 then []
  else
    [.element "div" [("class", "lanes"), ("style", "--lanes: " ++ natText d.reservedLanes)] [],
      .text "\n"]

/-- A day as nodes. -/
def nodes (d : DayCell) : List Node :=
  [.element "div" [("class", d.cls), ("style", d.style)]
    (.text "\n" :: .element "time" [("datetime", d.date.iso)] [.text d.label] :: .text "\n" ::
      (d.spaceNodes ++ d.events.flatMap (·.nodes "event" none))),
    .text "\n"]

theorem writeAll_nodes (d : DayCell) : writeAll d.nodes = d.block := by
  have hevents := writeAll_flatMap (fun e : Event => e.writeAll_nodes "event" none) d.events
  unfold nodes block spaceNodes
  split <;> simp [writeAll, write, hevents, String.append_assoc]

theorem areProper_nodes {d : DayCell} (h : isPlain d.label = true) : areProper d.nodes = true := by
  have hevents : areProper (d.events.flatMap (·.nodes "event" none)) = true :=
    areProper_flatMap fun e _ => e.areProper_nodes (by decide) (by simp)
  have hspace : areProper d.spaceNodes = true := by
    unfold spaceNodes
    split
    · rfl
    · simp only [areProper, isProper, tagOk, List.all_cons, List.all_nil, isPlain_append,
        isPlain_natText]
      decide
  simp only [nodes, areProper, isProper, tagOk, List.all_cons, List.all_nil, areProper_append,
    hevents, hspace, h, isPlain_cls, isPlain_style, Date.isPlain_iso]
  decide

end DayCell

namespace Segment

/-- A segment as nodes. -/
def nodes (s : Segment) : List Node := s.event.nodes s.cls (some s.style)

theorem writeAll_nodes (s : Segment) : writeAll s.nodes = s.block :=
  s.event.writeAll_nodes s.cls (some s.style)

theorem areProper_nodes (s : Segment) : areProper s.nodes = true := by
  refine s.event.areProper_nodes s.isPlain_cls ?_
  rintro _ ⟨⟩
  exact s.isPlain_style

end Segment

/-! ### The year -/

namespace Layout

/-- The page as nodes. -/
def nodes (l : Layout) : List Node :=
  [.element "div" [("class", "year"), ("data-year", intText l.year), ("style", l.style)]
    (.text "\n" :: (l.days.flatMap DayCell.nodes ++ l.segments.flatMap Segment.nodes)),
    .text "\n"]

/-- The page writes its tree. -/
theorem writeAll_nodes (l : Layout) : writeAll l.nodes = l.html := by
  have hdays := writeAll_flatMap DayCell.writeAll_nodes l.days
  have hsegments := writeAll_flatMap Segment.writeAll_nodes l.segments
  simp [nodes, html, writeAll, write, writeAll_append, hdays, hsegments, String.append_assoc]

/-- The tree is proper if the labels of the days are plain. -/
theorem areProper_nodes {l : Layout} (h : ∀ d ∈ l.days, isPlain d.label = true) :
    areProper l.nodes = true := by
  have hdays : areProper (l.days.flatMap DayCell.nodes) = true :=
    areProper_flatMap fun d hd => DayCell.areProper_nodes (h d hd)
  have hsegments : areProper (l.segments.flatMap Segment.nodes) = true :=
    areProper_flatMap fun s _ => s.areProper_nodes
  simp only [nodes, areProper, isProper, tagOk, List.all_cons, List.all_nil, areProper_append,
    hdays, hsegments, isPlain_intText, isPlain_style]
  decide

/-- The labels of a layout made from events are days of the month, with or without the month. -/
theorem isPlain_label {g : Grid} {events : List Event} {l : Layout}
    (h : ofEvents g events = .ok l) : ∀ d ∈ l.days, isPlain d.label = true := by
  rw [days_eq_map h, List.forall_mem_map]
  intro d _
  exact DayCell.isPlain_labelOf ..

end Layout

end WallCalendar
