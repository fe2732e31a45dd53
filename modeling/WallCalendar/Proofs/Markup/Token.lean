import WallCalendar.Proofs.Markup.Escape

/-!
Reading markup back as tags and characters.

A reader goes through the text once. Outside tags every character but `<` stands for itself. A tag
is `<name key="value" …>` or `</name>`, and a value goes up to the next quote. Plain text is read as
its characters, and a tag as the tag it writes, provided that its names are letters and dashes and
its values are plain.
-/

namespace WallCalendar.Markup

/-! ### The reader -/

/-- What a text of markup consists of. -/
inductive Token where
  /-- A character of content. -/
  | char (c : Char)
  /-- An opening tag with its attributes. -/
  | opening (name : String) (attributes : List (String × String))
  /-- A closing tag. -/
  | closing (name : String)
  deriving DecidableEq, Repr

/-- Where the reader stands. -/
inductive Mode where
  /-- Outside tags. -/
  | content
  /-- In the name of a tag that opens; nothing of it yet just after `<`. -/
  | opening (name : List Char)
  /-- In the name of a tag that closes. -/
  | closing (name : List Char)
  /-- In the name of an attribute. -/
  | key (tag : String) (before : List (String × String)) (name : List Char)
  /-- After the name of an attribute and `=`. -/
  | equals (tag : String) (before : List (String × String)) (name : String)
  /-- In a value. -/
  | value (tag : String) (before : List (String × String)) (name : String) (cs : List Char)
  /-- After the quote that ends a value. -/
  | ended (tag : String) (attributes : List (String × String))
  /-- After something that is no markup. -/
  | broken
  deriving DecidableEq, Repr

/-- The characters of names. -/
def isNameChar (c : Char) : Bool := c.isLower || c == '-'

/-- Goes on after a name or a value in an opening tag. -/
def goOn (tag : String) (attributes : List (String × String)) (c : Char) : Mode × List Token :=
  if c = ' ' then (.key tag attributes [], [])
  else if c = '>' then (.content, [.opening tag attributes])
  else (.broken, [])

/-- Reads one character: where the reader stands then, and the token that is complete. -/
def Mode.step : Mode → Char → Mode × List Token
  | content, c => if c = '<' then (opening [], []) else (content, [.char c])
  | opening name, c =>
    if isNameChar c then (opening (name ++ [c]), [])
    else if name ≠ [] then goOn (String.ofList name) [] c
    else if c = '/' then (closing [], [])
    else (broken, [])
  | closing name, c =>
    if isNameChar c then (closing (name ++ [c]), [])
    else if name ≠ [] ∧ c = '>' then (content, [.closing (String.ofList name)])
    else (broken, [])
  | key tag before name, c =>
    if isNameChar c then (key tag before (name ++ [c]), [])
    else if name ≠ [] ∧ c = '=' then (equals tag before (String.ofList name), [])
    else (broken, [])
  | equals tag before name, c =>
    if c = '\"' then (value tag before name [], []) else (broken, [])
  | value tag before name cs, c =>
    if c = '\"' then (ended tag (before ++ [(name, String.ofList cs)]), [])
    else (value tag before name (cs ++ [c]), [])
  | ended tag attributes, c => goOn tag attributes c
  | broken, _ => (broken, [])

/-- Reads one character after some tokens. -/
def read (s : Mode × List Token) (c : Char) : Mode × List Token :=
  ((s.1.step c).1, s.2 ++ (s.1.step c).2)

/-- The tokens of a text, if it is markup and ends outside tags. -/
def tokenize (s : String) : Option (List Token) :=
  match s.toList.foldl read (.content, []) with
  | (.content, tokens) => some tokens
  | _ => none

/-! ### Nesting -/

/-- The elements without content, which nothing closes. -/
def isVoid (name : String) : Bool := name == "img"

/-- Whether every closing tag closes the element opened last, and all those of `stack` are closed
at the end. -/
def nests : List String → List Token → Bool
  | stack, [] => stack.isEmpty
  | stack, .char _ :: ts => nests stack ts
  | stack, .opening name _ :: ts => nests (if isVoid name then stack else name :: stack) ts
  | [], .closing _ :: _ => false
  | top :: stack, .closing name :: ts => top == name && nests stack ts

/-! ### Tags and delimiters -/

/-- A tag without its values. -/
inductive Tag where
  | opening (name : String) (keys : List String)
  | closing (name : String)
  deriving DecidableEq, Repr

/-- The tag that a token is. -/
def Token.tag? : Token → Option Tag
  | char _ => none
  | opening name attributes => some (.opening name (attributes.map Prod.fst))
  | closing name => some (.closing name)

/-- The delimiters of a tag whose values hold none. -/
def Tag.delimiters : Tag → List Char
  | opening _ keys => '<' :: keys.flatMap (fun _ => ['\"', '\"']) ++ ['>']
  | closing _ => ['<', '>']

/-- A name of letters and dashes. -/
def isName (s : String) : Bool := !s.toList.isEmpty && s.toList.all isNameChar

/-- A tag of these names and values can be read back. -/
def tagOk (tag : String) (attributes : List (String × String)) : Bool :=
  isName tag && attributes.all fun a => isName a.1 && isPlain a.2

variable {cs : List Char} {s tag : String} {attributes before : List (String × String)}

theorem isName_iff : isName s = true ↔ s.toList ≠ [] ∧ ∀ c ∈ s.toList, isNameChar c = true := by
  simp [isName]

theorem tagOk_iff : tagOk tag attributes = true ↔
    isName tag = true ∧ ∀ a ∈ attributes, isName a.1 = true ∧ isPlain a.2 = true := by
  simp [tagOk]

theorem toList_assignment (a : String × String) :
    (assignment a).toList = ' ' :: a.1.toList ++ ['=', '\"'] ++ a.2.toList ++ ['\"'] := by
  simp [assignment]

theorem toList_openTag (tag : String) (attributes : List (String × String)) :
    (openTag tag attributes).toList =
      '<' :: tag.toList ++ (attributes.flatMap fun a => (assignment a).toList) ++ ['>'] := by
  simp [openTag, String.toList_join, List.flatMap_map]

theorem toList_closeTag (tag : String) :
    (closeTag tag).toList = '<' :: '/' :: tag.toList ++ ['>'] := by
  simp [closeTag]

/-! ### What is written is read back -/

/-- A mode that gathers characters of one kind gathers any number of them. -/
theorem foldl_read_gather {m : List Char → Mode} {p : Char → Bool}
    (hstep : ∀ cs c, p c = true → (m cs).step c = (m (cs ++ [c]), []))
    (h : ∀ c ∈ cs, p c = true) (start : List Char) (ts : List Token) :
    cs.foldl read (m start, ts) = (m (start ++ cs), ts) := by
  induction cs generalizing start with
  | nil => rw [List.append_nil]; rfl
  | cons c cs ih =>
    rw [List.forall_mem_cons] at h
    rw [List.foldl_cons, read, hstep start c h.1, List.append_nil, ih h.2, List.append_assoc]
    rfl

theorem foldl_read_content (h : ∀ c ∈ cs, c ≠ '<') (ts : List Token) :
    cs.foldl read (.content, ts) = (.content, ts ++ cs.map .char) := by
  induction cs generalizing ts with
  | nil => rw [List.map_nil, List.append_nil]; rfl
  | cons c cs ih =>
    rw [List.forall_mem_cons] at h
    rw [List.foldl_cons, read, Mode.step, if_neg h.1, ih h.2, List.append_assoc]
    rfl

/-- Plain text opens no tag. -/
theorem foldl_read_plain (h : isPlain s = true) (ts : List Token) :
    s.toList.foldl read (.content, ts) = (.content, ts ++ s.toList.map .char) := by
  refine foldl_read_content (fun c hc => ?_) ts
  rintro rfl
  exact absurd (isPlain_iff.mp h _ hc) (by decide)

theorem foldl_read_name {m : List Char → Mode}
    (hstep : ∀ cs c, isNameChar c = true → (m cs).step c = (m (cs ++ [c]), []))
    {name : String} (h : isName name = true) (ts : List Token) :
    name.toList.foldl read (m [], ts) = (m name.toList, ts) :=
  foldl_read_gather (m := m) (p := isNameChar) hstep (isName_iff.mp h).2 [] ts

/-- A plain text has no quote in it, so as a value it goes up to its end. -/
theorem foldl_read_value (key : String) (h : isPlain s = true) (ts : List Token) :
    s.toList.foldl read (.value tag before key [], ts) =
      (.value tag before key s.toList, ts) := by
  have hstep : ∀ cs c, !isDelimiter c → (Mode.value tag before key cs).step c =
      (.value tag before key (cs ++ [c]), []) := by
    intro cs c hc
    have hne : c ≠ '\"' := by
      rintro rfl
      exact absurd hc (by decide)
    rw [Mode.step, if_neg hne]
  have hplain : ∀ c ∈ s.toList, !isDelimiter c := fun c hc => by
    rw [isPlain_iff.mp h c hc]; rfl
  have hgather := foldl_read_gather hstep hplain [] ts
  rwa [List.nil_append] at hgather

/-- After `m`, the attributes of a tag may follow, or its end. -/
def Mode.GoesOn (m : Mode) (tag : String) (before : List (String × String)) : Prop :=
  ∀ c, isNameChar c = false → m.step c = goOn tag before c

theorem goesOn_opening (h : isName tag = true) : (Mode.opening tag.toList).GoesOn tag [] := by
  intro c hc
  rw [Mode.step, if_neg (by simp [hc]), if_pos (isName_iff.mp h).1, String.ofList_toList]

theorem goesOn_ended : (Mode.ended tag before).GoesOn tag before := fun _ _ => rfl

theorem foldl_read_assignment {m : Mode} (hm : m.GoesOn tag before) {a : String × String}
    (hkey : isName a.1 = true) (hvalue : isPlain a.2 = true) (ts : List Token) :
    (assignment a).toList.foldl read (m, ts) = (.ended tag (before ++ [a]), ts) := by
  have hblank : read (m, ts) ' ' = (.key tag before [], ts) := by
    rw [read, hm ' ' rfl]; simp [goOn]
  have hequals : read (.key tag before a.1.toList, ts) '=' = (.equals tag before a.1, ts) := by
    simp [read, Mode.step, (isName_iff.mp hkey).1, show isNameChar '=' = false from rfl]
  have hname := foldl_read_name (m := .key tag before) (fun _ _ hc => by simp [Mode.step, hc])
    hkey ts
  have hopen : read (.equals tag before a.1, ts) '\"' = (.value tag before a.1 [], ts) := by
    simp [read, Mode.step]
  have hclose : read (.value tag before a.1 a.2.toList, ts) '\"' =
      (.ended tag (before ++ [a]), ts) := by
    simp [read, Mode.step]
  simp only [toList_assignment, List.cons_append, List.foldl_append, List.foldl_cons,
    List.foldl_nil, hblank, hname, hequals, hopen, foldl_read_value _ hvalue, hclose]

theorem foldl_read_assignments {m : Mode} (hm : m.GoesOn tag before)
    (h : ∀ a ∈ attributes, isName a.1 = true ∧ isPlain a.2 = true) (ts : List Token) :
    ((attributes.flatMap fun a => (assignment a).toList) ++ ['>']).foldl read (m, ts) =
      (.content, ts ++ [.opening tag (before ++ attributes)]) := by
  -- the first attribute comes after the name of the tag, the others after the end of a value
  induction attributes generalizing m before with
  | nil =>
    rw [List.flatMap_nil, List.nil_append, List.foldl_cons, read, hm '>' rfl]
    simp [goOn]
  | cons a attributes ih =>
    rw [List.forall_mem_cons] at h
    rw [List.flatMap_cons, List.append_assoc, List.foldl_append,
      foldl_read_assignment hm h.1.1 h.1.2, ih goesOn_ended h.2, List.append_assoc]
    rfl

theorem foldl_read_openTag (h : tagOk tag attributes = true) (ts : List Token) :
    (openTag tag attributes).toList.foldl read (.content, ts) =
      (.content, ts ++ [.opening tag attributes]) := by
  obtain ⟨htag, hattributes⟩ := tagOk_iff.mp h
  have hname := foldl_read_name (m := .opening) (fun _ _ hc => by simp [Mode.step, hc]) htag ts
  have hopen : read (.content, ts) '<' = (.opening [], ts) := by simp [read, Mode.step]
  rw [toList_openTag, List.cons_append, List.cons_append, List.append_assoc, List.foldl_cons, hopen,
    List.foldl_append, hname, foldl_read_assignments (goesOn_opening htag) hattributes]
  rfl

theorem foldl_read_closeTag (h : isName tag = true) (ts : List Token) :
    (closeTag tag).toList.foldl read (.content, ts) = (.content, ts ++ [.closing tag]) := by
  have hname := foldl_read_name (m := .closing) (fun _ _ hc => by simp [Mode.step, hc]) h ts
  have hopen : read (.content, ts) '<' = (.opening [], ts) := by simp [read, Mode.step]
  have hslash : read (.opening [], ts) '/' = (.closing [], ts) := by
    simp [read, Mode.step, show isNameChar '/' = false from rfl]
  rw [toList_closeTag, List.cons_append, List.cons_append, List.foldl_cons, hopen, List.foldl_cons,
    hslash, List.foldl_append, hname]
  simp [read, Mode.step, (isName_iff.mp h).1, show isNameChar '>' = false from rfl]

/-! ### The delimiters of what is written -/

theorem filter_isDelimiter_plain (h : isPlain s = true) : s.toList.filter isDelimiter = [] := by
  refine List.filter_eq_nil_iff.mpr fun c hc => ?_
  rw [isPlain_iff.mp h c hc]
  exact Bool.false_ne_true

theorem filter_isDelimiter_name (h : isName s = true) : s.toList.filter isDelimiter = [] := by
  have hchar : ∀ c, isNameChar c = true → isDelimiter c = false := by
    intro c hc
    by_contra hd
    simp only [isDelimiter, Bool.not_eq_false, decide_eq_true_eq, List.mem_cons,
      List.not_mem_nil, or_false] at hd
    rcases hd with rfl | rfl | rfl | rfl <;> revert hc <;> decide
  exact filter_isDelimiter_plain (isPlain_iff.mpr fun c hc => hchar c ((isName_iff.mp h).2 c hc))

theorem filter_isDelimiter_assignments
    (h : ∀ a ∈ attributes, isName a.1 = true ∧ isPlain a.2 = true) :
    (attributes.flatMap fun a => (assignment a).toList).filter isDelimiter =
      (attributes.map Prod.fst).flatMap fun _ => ['\"', '\"'] := by
  induction attributes with
  | nil => rfl
  | cons a attributes ih =>
    obtain ⟨⟨hname, hvalue⟩, hrest⟩ := List.forall_mem_cons.mp h
    rw [List.flatMap_cons, List.filter_append, ih hrest, List.map_cons, List.flatMap_cons,
      toList_assignment]
    simp only [List.filter_append, List.cons_append, List.filter_cons,
      filter_isDelimiter_name hname, filter_isDelimiter_plain hvalue]
    rfl

theorem filter_isDelimiter_openTag (h : tagOk tag attributes = true) :
    (openTag tag attributes).toList.filter isDelimiter =
      (Tag.opening tag (attributes.map Prod.fst)).delimiters := by
  obtain ⟨htag, hattributes⟩ := tagOk_iff.mp h
  simp only [toList_openTag, List.cons_append, List.filter_append, List.filter_cons,
    filter_isDelimiter_name htag, filter_isDelimiter_assignments hattributes]
  rfl

theorem filter_isDelimiter_closeTag (h : isName tag = true) :
    (closeTag tag).toList.filter isDelimiter = (Tag.closing tag).delimiters := by
  simp only [toList_closeTag, List.cons_append, List.filter_append, List.filter_cons,
    filter_isDelimiter_name h]
  rfl

end WallCalendar.Markup
