import WallCalendar.Proofs.Layout.Reserved
import WallCalendar.Proofs.Layout.Tree

/-!
The page of a layout, whatever its events say.

Titles, notes, addresses and categories only ever become characters and values. The tags of the page
follow from the shape of the layout: how many days and segments there are, which days keep space
clear, and of each event drawn whether it has a time, an address, a picture and categories.
-/

namespace WallCalendar

open WallCalendar.Markup WallCalendar.Markup.Node

/-! ### Shapes -/

/-- What the tags of an event depend on. -/
structure Event.Shape where
  timed : Bool
  linked : Bool
  pictured : Bool
  categorized : Bool
  deriving DecidableEq, Repr

/-- What the tags of a day depend on. -/
structure DayCell.Shape where
  spaced : Bool
  events : List Event.Shape
  deriving DecidableEq, Repr

/-- What the tags of a layout depend on. -/
structure Layout.Shape where
  days : List DayCell.Shape
  segments : List Event.Shape
  deriving DecidableEq, Repr

/-- The shape of an event. -/
def Event.shape (e : Event) : Event.Shape where
  timed := !e.span.isAllDay
  linked := e.details.url.isSome
  pictured := e.details.imageUrl.isSome
  categorized := !e.details.categories.isEmpty

/-- The shape of a day. -/
def DayCell.shape (d : DayCell) : DayCell.Shape where
  spaced := d.reservedLanes != 0
  events := d.events.map Event.shape

/-- The shape of a layout. -/
def Layout.shape (l : Layout) : Layout.Shape where
  days := l.days.map DayCell.shape
  segments := l.segments.map (·.event.shape)

/-- An element: its opening tag, the tags inside it, its closing tag. -/
def Markup.Tag.around (name : String) (keys : List String) (content : List Tag) : List Tag :=
  .opening name keys :: content ++ [.closing name]

open Markup.Tag (around)

/-- The tags of an event. Segments have a style, stacked events have none. -/
def Event.Shape.tags (s : Event.Shape) (styled : Bool) : List Tag :=
  around "div"
    (["class", "title"] ++ (if styled then ["style"] else []) ++
      (if s.categorized then ["data-categories"] else []))
    ((if s.pictured then [.opening "img" ["src", "alt", "loading"]] else []) ++
      (if s.timed then around "time" ["datetime"] [] else []) ++
      (if s.linked then around "a" ["href"] [] else []))

/-- The tags of a day. -/
def DayCell.Shape.tags (s : DayCell.Shape) : List Tag :=
  around "div" ["class", "style"]
    (around "time" ["datetime"] [] ++
      (if s.spaced then around "div" ["class", "style"] [] else []) ++
      s.events.flatMap (·.tags false))

/-- The tags of a layout. -/
def Layout.Shape.tags (s : Layout.Shape) : List Tag :=
  around "div" ["class", "data-year", "style"]
    (s.days.flatMap (·.tags) ++ s.segments.flatMap (·.tags true))

/-! ### Tags -/

theorem Markup.gather_tag?_text {s : String} {nodes : List Node} :
    gather Token.tag? (text s :: nodes) = gather Token.tag? nodes := gather_text (fun _ => rfl) s

theorem Markup.gather_tag?_element {tag : String} {attributes : List (String × String)}
    {content nodes : List Node} :
    gather Token.tag? (element tag attributes content :: nodes) =
      around tag (attributes.map Prod.fst) (gather Token.tag? content) ++
        gather Token.tag? nodes := by
  rw [gather_element]
  simp [Token.tag?, around]

theorem Event.gather_tag?_titleNodes (e : Event) :
    gather Token.tag? e.titleNodes =
      if e.shape.linked then around "a" ["href"] [] else [] := by
  unfold titleNodes shape
  cases e.details.url <;> simp [gather_tag?_element, gather_tag?_text]

theorem Event.gather_tag?_headlineNodes (e : Event) :
    gather Token.tag? e.headlineNodes =
      (if e.shape.timed then around "time" ["datetime"] [] else []) ++
        (if e.shape.linked then around "a" ["href"] [] else []) := by
  unfold headlineNodes
  split
  next hspan =>
    have htimed : e.shape.timed = false := by rw [shape, hspan]; rfl
    rw [gather_tag?_titleNodes, htimed]
    rfl
  next hspan =>
    have htimed : e.shape.timed = true := by rw [shape, hspan]; rfl
    rw [gather_tag?_element, gather_tag?_text, gather_tag?_text, gather_tag?_titleNodes, htimed]
    rfl

theorem Event.gather_tag?_pictureNodes (e : Event) :
    gather Token.tag? e.pictureNodes =
      if e.shape.pictured then [.opening "img" ["src", "alt", "loading"]] else [] := by
  unfold pictureNodes shape
  cases e.details.imageUrl <;> simp [gather_empty, Token.tag?]

theorem Event.map_fst_attributes (e : Event) (cls : String) (style : Option String) :
    (e.attributes cls style).map Prod.fst =
      ["class", "title"] ++ (if style.isSome then ["style"] else []) ++
        (if e.shape.categorized then ["data-categories"] else []) := by
  unfold attributes shape
  cases style <;> cases e.details.categories.isEmpty <;> rfl

theorem Event.gather_tag?_nodes (e : Event) (cls : String) (style : Option String) :
    gather Token.tag? (e.nodes cls style) = e.shape.tags style.isSome := by
  rw [nodes, gather_tag?_element, gather_tag?_text, gather_append, gather_tag?_pictureNodes,
    gather_tag?_headlineNodes, map_fst_attributes, gather_nil, List.append_nil, Shape.tags,
    List.append_assoc (if e.shape.pictured then _ else _)]

theorem DayCell.gather_tag?_spaceNodes (d : DayCell) :
    gather Token.tag? d.spaceNodes =
      if d.shape.spaced then around "div" ["class", "style"] [] else [] := by
  unfold spaceNodes shape
  by_cases hzero : d.reservedLanes = 0 <;> simp [hzero, gather_tag?_element, gather_tag?_text]

theorem DayCell.gather_tag?_nodes (d : DayCell) : gather Token.tag? d.nodes = d.shape.tags := by
  have hevents : gather Token.tag? (d.events.flatMap (·.nodes "event" none)) =
      d.shape.events.flatMap (·.tags false) := by
    rw [gather_flatMap, shape, List.flatMap_map]
    simp only [Event.gather_tag?_nodes]
    rfl
  unfold nodes Shape.tags
  simp only [gather_tag?_element, gather_tag?_text, gather_append, gather_tag?_spaceNodes, hevents,
    gather_nil, List.append_nil, List.append_assoc]
  rfl

theorem Segment.gather_tag?_nodes (s : Segment) :
    gather Token.tag? s.nodes = s.event.shape.tags true := s.event.gather_tag?_nodes ..

theorem Layout.gather_tag?_nodes (l : Layout) : gather Token.tag? l.nodes = l.shape.tags := by
  unfold nodes Shape.tags
  simp only [gather_tag?_element, gather_tag?_text, gather_append, gather_flatMap,
    DayCell.gather_tag?_nodes, Segment.gather_tag?_nodes, shape, List.flatMap_map, gather_nil,
    List.append_nil]
  rfl

/-! ### Classes -/

/-- The class of a `div`. -/
def Markup.Token.divClass? : Token → Option String
  | opening name attributes => if name = "div" then attributes.lookup "class" else none
  | _ => none

/-- The classes on a day: its own, that of the space it keeps clear, those of its events. -/
def DayCell.classes (d : DayCell) : List String :=
  d.cls :: (if d.reservedLanes = 0 then [] else ["lanes"]) ++ d.events.map fun _ => "event"

/-- Whether a class begins with a word. -/
def Markup.isClass (word cls : String) : Bool := word.toList.isPrefixOf cls.toList

/-- What the classes of a segment begin with. -/
theorem Segment.cls_spec (s : Segment) :
    isClass "multi" s.cls = true ∧ isClass "day" s.cls = false ∧ s.cls ≠ "event" := by
  unfold cls
  cases s.continuesBefore <;> cases s.continuesAfter <;> decide

/-- What the class of a day begins with. -/
theorem DayCell.cls_spec (d : DayCell) :
    isClass "day" d.cls = true ∧ isClass "multi" d.cls = false ∧ d.cls ≠ "event" := by
  unfold cls
  cases d.inYear <;> decide

theorem Markup.gather_divClass?_text {s : String} {nodes : List Node} :
    gather Token.divClass? (text s :: nodes) = gather Token.divClass? nodes :=
  gather_text (fun _ => rfl) s

theorem Markup.gather_divClass?_element {tag : String} {attributes : List (String × String)}
    {content nodes : List Node} :
    gather Token.divClass? (element tag attributes content :: nodes) =
      (if tag = "div" then attributes.lookup "class" else none).toList ++
        gather Token.divClass? content ++ gather Token.divClass? nodes := by
  rw [gather_element]
  simp [Token.divClass?]

theorem Event.gather_divClass?_headlineNodes (e : Event) :
    gather Token.divClass? e.headlineNodes = [] := by
  have htitle : gather Token.divClass? e.titleNodes = [] := by
    unfold titleNodes
    split <;> simp [gather_divClass?_element, gather_divClass?_text]
  unfold headlineNodes
  split
  · exact htitle
  · simp [gather_divClass?_element, gather_divClass?_text, htitle]

theorem Event.gather_divClass?_nodes (e : Event) (cls : String) (style : Option String) :
    gather Token.divClass? (e.nodes cls style) = [cls] := by
  have hpicture : gather Token.divClass? e.pictureNodes = [] := by
    unfold pictureNodes
    split <;> simp [gather_empty, Token.divClass?]
  have hclass : (e.attributes cls style).lookup "class" = some cls := by
    simp [attributes]
  rw [nodes, gather_divClass?_element, gather_divClass?_text, gather_append, hpicture,
    gather_divClass?_headlineNodes, hclass]
  rfl

theorem DayCell.gather_divClass?_nodes (d : DayCell) :
    gather Token.divClass? d.nodes = d.classes := by
  have hevents : gather Token.divClass? (d.events.flatMap (·.nodes "event" none)) =
      d.events.map fun _ => "event" := by
    rw [gather_flatMap]
    simp only [Event.gather_divClass?_nodes]
    exact List.flatMap_pure_eq_map ..
  have hspace : gather Token.divClass? d.spaceNodes =
      if d.reservedLanes = 0 then [] else ["lanes"] := by
    unfold spaceNodes
    split <;> simp [gather_divClass?_element, gather_divClass?_text]
  unfold nodes classes
  simp only [gather_divClass?_element, gather_divClass?_text, gather_append, hspace, hevents]
  simp

/-- The classes on a page. -/
theorem Layout.gather_divClass?_nodes (l : Layout) :
    gather Token.divClass? l.nodes =
      "year" :: l.days.flatMap DayCell.classes ++ l.segments.map Segment.cls := by
  have hsegments : l.segments.flatMap (fun s => gather Token.divClass? s.nodes) =
      l.segments.map Segment.cls := by
    simp only [Segment.nodes, Event.gather_divClass?_nodes]
    exact List.flatMap_pure_eq_map ..
  unfold nodes
  simp only [gather_divClass?_element, gather_divClass?_text, gather_append, gather_flatMap,
    DayCell.gather_divClass?_nodes, hsegments]
  simp

/-- What a test finds on a day, if it does not find the space kept clear. -/
theorem DayCell.filter_classes {p : String → Bool} (hlanes : p "lanes" = false) (d : DayCell) :
    d.classes.filter p =
      (if p d.cls then [d.cls] else []) ++ (d.events.map fun _ => "event").filter p := by
  have hspace : (if d.reservedLanes = 0 then [] else ["lanes"]).filter p = [] := by
    split <;> simp [hlanes]
  rw [classes, List.cons_append, List.filter_cons, List.filter_append, hspace]
  split <;> rfl

/-- What a test finds on a page, if it finds neither the year nor the space that days keep clear. -/
theorem Layout.filter_divClass?_nodes {p : String → Bool} (hyear : p "year" = false)
    (hlanes : p "lanes" = false) (l : Layout) :
    (gather Token.divClass? l.nodes).filter p =
      l.days.flatMap (fun d =>
        (if p d.cls then [d.cls] else []) ++ (d.events.map fun _ => "event").filter p) ++
      (l.segments.map Segment.cls).filter p := by
  rw [gather_divClass?_nodes, List.cons_append, List.filter_cons_of_neg (by simp [hyear]),
    List.filter_append, List.filter_flatMap]
  simp only [DayCell.filter_classes hlanes]

theorem Layout.countP_day (l : Layout) :
    (gather Token.divClass? l.nodes).countP (isClass "day") = l.days.length := by
  have hsegments : (l.segments.map Segment.cls).filter (isClass "day") = [] :=
    List.filter_eq_nil_iff.mpr (by simp [Segment.cls_spec])
  have hday : ∀ d : DayCell, (if isClass "day" d.cls then [d.cls] else []) ++
      (d.events.map fun _ => "event").filter (isClass "day") = [d.cls] := by
    simp [DayCell.cls_spec, show isClass "day" "event" = false by decide]
  have hdays : l.days.flatMap (fun d => [d.cls]) = l.days.map DayCell.cls :=
    List.flatMap_pure_eq_map ..
  rw [List.countP_eq_length_filter, filter_divClass?_nodes (by decide) (by decide), hsegments]
  simp only [hday, hdays, List.append_nil, List.length_map]

theorem Layout.countP_multi (l : Layout) :
    (gather Token.divClass? l.nodes).countP (isClass "multi") = l.segments.length := by
  have hsegments : (l.segments.map Segment.cls).filter (isClass "multi") =
      l.segments.map Segment.cls := List.filter_eq_self.mpr (by simp [Segment.cls_spec])
  rw [List.countP_eq_length_filter, filter_divClass?_nodes (by decide) (by decide), hsegments]
  simp [DayCell.cls_spec, show isClass "multi" "event" = false by decide]

theorem Layout.count_event (l : Layout) :
    (gather Token.divClass? l.nodes).count "event" = (l.days.flatMap (·.events)).length := by
  rw [List.count, List.countP_eq_length_filter,
    filter_divClass?_nodes (by decide) (by decide)]
  simp [DayCell.cls_spec, Segment.cls_spec]

/-! ### The page -/

/-- A day of a layout keeps space clear just when a segment lies over it. -/
theorem Layout.spaced_iff {g : Grid} {events : List Event} {l : Layout}
    (h : ofEvents g events = .ok l) {d : DayCell} (hd : d ∈ l.days) :
    d.shape.spaced = true ↔ ∃ s ∈ l.segments, s.covers d.ord = true := by
  have hzero : d.reservedLanes = 0 ↔ ∀ s ∈ l.segments, s.covers d.ord = false := by
    rw [reservedLanes_eq h hd, ← Nat.le_zero, Finset.sup_le_iff]
    simp
  simp [DayCell.shape, hzero]

/-- Whatever events say about themselves, the page of their layout is well nested markup, with tags,
delimiters and classes that are those of its shape. So pages of one shape differ in characters and
values only. -/
theorem Layout.html_of_shape :
    (∀ g events l, ofEvents g events = .ok l →
      ∃ ts, tokenize l.html = some ts ∧ nests [] ts = true ∧
        ts.filterMap Token.tag? = l.shape.tags ∧
        l.html.toList.filter isDelimiter = l.shape.tags.flatMap Tag.delimiters ∧
        (ts.filterMap Token.divClass?).countP (isClass "day") = l.days.length ∧
        (ts.filterMap Token.divClass?).countP (isClass "multi") = l.segments.length ∧
        (ts.filterMap Token.divClass?).count "event" = (l.days.flatMap (·.events)).length) ∧
    (∀ g events l g' events' l', ofEvents g events = .ok l → ofEvents g' events' = .ok l' →
      l.shape = l'.shape →
        l.html.toList.filter isDelimiter = l'.html.toList.filter isDelimiter) ∧
    ∀ g events l, ofEvents g events = .ok l → ∀ d ∈ l.days,
      (d.shape.spaced = true ↔ ∃ s ∈ l.segments, s.covers d.ord = true) := by
  have hproper : ∀ {g events l}, ofEvents g events = .ok l → areProper l.nodes = true :=
    fun h => areProper_nodes (isPlain_label h)
  have hdelimiters : ∀ {g events l}, ofEvents g events = .ok l →
      l.html.toList.filter isDelimiter = l.shape.tags.flatMap Tag.delimiters := by
    intro g events l h
    rw [← writeAll_nodes, filter_isDelimiter_writeAll _ (hproper h), gather_tag?_nodes]
  refine ⟨?_, ?_, fun g events l h d hd => spaced_iff h hd⟩
  · intro g events l h
    have htokens := tokenize_writeAll (hproper h)
    have hnests := nests_tokensAll l.nodes (hproper h) [] []
    rw [writeAll_nodes] at htokens
    rw [List.append_nil] at hnests
    exact ⟨_, htokens, hnests, l.gather_tag?_nodes, hdelimiters h, l.countP_day, l.countP_multi,
      l.count_event⟩
  · intro g events l g' events' l' h h' hshape
    rw [hdelimiters h, hdelimiters h', hshape]

namespace Sample

/-- The talk, saying the same text everywhere. -/
def poster (text : String) : Event := ⟨⟨text, some text, some text, some text, [text]⟩, talk.span⟩

/-- The trip, and a poster while it lasts. -/
def posted (text : String) : List Event := [trip, poster text]

/-- The trip is a bar, so the poster is all that is stacked. -/
theorem events_cell_posted (g : Grid) (text : String) (d : Date) :
    (Layout.cell g (posted text) d).events = if talk.startDate = d then [poster text] else [] := by
  have hstacked : Event.sort ((posted text).filter (!·.isBar)) = [poster text] :=
    List.mergeSort_singleton _
  rw [Layout.cell, hstacked]
  simp only [List.filter_cons, List.filter_nil, decide_eq_true_eq]
  rfl

/-- What the poster says does not show in the shape. -/
theorem shape_eq_of_posted {g : Grid} {l l' : Layout} {text text' : String}
    (h : Layout.ofEvents g (posted text) = .ok l) (h' : Layout.ofEvents g (posted text') = .ok l') :
    l.shape = l'.shape := by
  have hcell : ∀ d ∈ g.dates, (Layout.cell g (posted text) d).shape =
      (Layout.cell g (posted text') d).shape := by
    intro d _
    rw [DayCell.shape, DayCell.shape, events_cell_posted, events_cell_posted]
    split <;> rfl
  have hdays : l.days.map DayCell.shape = l'.days.map DayCell.shape := by
    rw [Layout.days_eq_map h, Layout.days_eq_map h', List.map_map, List.map_map]
    exact List.map_congr_left hcell
  have hsegments : l.segments = l'.segments := by
    rw [(Layout.ofEvents_eq_ok_iff.mp h).2, (Layout.ofEvents_eq_ok_iff.mp h').2]; rfl
  rw [Layout.shape, Layout.shape, hdays, hsegments]

end Sample

/-- A poster that looks like markup is stacked on the tenth of March, below the trip that lies over
the day, and none of it becomes markup. -/
theorem Layout.html_of_shape_sample :
    ∃ g l l' d, ofEvents g (Sample.posted "</div><b class=\"day\">") = .ok l ∧
      ofEvents g (Sample.posted "Trip") = .ok l' ∧
      (∃ ts, tokenize l.html = some ts ∧ nests [] ts = true) ∧
      l.html.toList.filter isDelimiter = l'.html.toList.filter isDelimiter ∧
      d ∈ l.days ∧ d.events = [Sample.poster "</div><b class=\"day\">"] ∧
      (d.shape.spaced = true ↔ ∃ s ∈ l.segments, s.covers d.ord = true) := by
  obtain ⟨g, _, -, hplan, hd⟩ := Sample.exists_layout
  obtain ⟨hshows, -⟩ := ofEvents_eq_ok_iff.mp hplan
  have hposted : ∀ text, ofEvents g (Sample.posted text) = .ok (drawn g (Sample.posted text)) := by
    intro text
    refine ofEvents_eq_ok_iff.mpr ⟨?_, rfl⟩
    -- the grid shows the trip and the talk, and the poster hangs while the talk lasts
    rintro e (_ | ⟨_, _ | ⟨_, ⟨⟩⟩⟩)
    · exact hshows Sample.trip (by simp [Sample.plan])
    · exact hshows Sample.talk (by simp [Sample.plan])
  have hl := hposted "</div><b class=\"day\">"
  obtain ⟨ts, hts, hnests, -⟩ := html_of_shape.1 g _ _ hl
  have hcell := List.mem_of_getElem? (getElem?_days hl hd)
  refine ⟨g, _, _, _, hl, hposted "Trip", ⟨ts, hts, hnests⟩, ?_, hcell, ?_, ?_⟩
  · exact html_of_shape.2.1 g _ _ g _ _ hl (hposted "Trip")
      (Sample.shape_eq_of_posted hl (hposted "Trip"))
  · rw [Sample.events_cell_posted]
    exact if_pos rfl
  · exact html_of_shape.2.2 g _ _ hl _ hcell

end WallCalendar
