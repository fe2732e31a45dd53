import WallCalendar.Proofs.Markup.Token

/-!
Texts that write trees of elements.

A tree stands for the text that writes its tags, texts and values as they are. Its tokens can be
read off the tree; if all its names are names and all its texts and values are plain, reading the
text gives just these tokens, every closing tag closes the element opened last, and the delimiters
of the text are those of its tags.
-/

namespace WallCalendar.Markup

/-- A node of a document. -/
inductive Node where
  /-- Characters. -/
  | text (s : String)
  /-- An element that has no content and no closing tag. -/
  | empty (tag : String) (attributes : List (String × String))
  /-- An element with its content. -/
  | element (tag : String) (attributes : List (String × String)) (content : List Node)

namespace Node

mutual

/-- The text that a node is written as. -/
def write : Node → String
  | text s => s
  | empty tag attributes => openTag tag attributes
  | element tag attributes content => openTag tag attributes ++ writeAll content ++ closeTag tag

/-- The text of nodes in a row. -/
def writeAll : List Node → String
  | [] => ""
  | node :: nodes => write node ++ writeAll nodes

end

mutual

/-- The tokens of a node. -/
def tokens : Node → List Token
  | text s => s.toList.map .char
  | empty tag attributes => [.opening tag attributes]
  | element tag attributes content =>
    .opening tag attributes :: tokensAll content ++ [.closing tag]

/-- The tokens of nodes in a row. -/
def tokensAll : List Node → List Token
  | [] => []
  | node :: nodes => tokens node ++ tokensAll nodes

end

mutual

/-- Whether the names are names, texts and values are plain, and just the elements without content
are void. -/
def isProper : Node → Bool
  | text s => isPlain s
  | empty tag attributes => tagOk tag attributes && isVoid tag
  | element tag attributes content => tagOk tag attributes && !isVoid tag && areProper content

/-- Whether nodes in a row are proper. -/
def areProper : List Node → Bool
  | [] => true
  | node :: nodes => isProper node && areProper nodes

end

/-! ### Nodes in a row -/

theorem writeAll_append (xs ys : List Node) : writeAll (xs ++ ys) = writeAll xs ++ writeAll ys := by
  induction xs with
  | nil => simp [writeAll]
  | cons x xs ih => rw [List.cons_append, writeAll, ih, writeAll, String.append_assoc]

theorem writeAll_flatMap {α : Type} {f : α → List Node} {g : α → String}
    (h : ∀ x, writeAll (f x) = g x) (xs : List α) :
    writeAll (xs.flatMap f) = String.join (xs.map g) := by
  induction xs with
  | nil => rfl
  | cons x xs ih => rw [List.flatMap_cons, writeAll_append, h, ih, List.map_cons, String.join_cons]

theorem areProper_append (xs ys : List Node) :
    areProper (xs ++ ys) = (areProper xs && areProper ys) := by
  induction xs with
  | nil => rfl
  | cons x xs ih => rw [List.cons_append, areProper, ih, areProper, Bool.and_assoc]

theorem areProper_flatMap {α : Type} {f : α → List Node} {xs : List α}
    (h : ∀ x ∈ xs, areProper (f x) = true) : areProper (xs.flatMap f) = true := by
  induction xs with
  | nil => rfl
  | cons x xs ih =>
    rw [List.forall_mem_cons] at h
    rw [List.flatMap_cons, areProper_append, h.1, ih h.2]
    rfl

/-! ### What is written is read back -/

mutual

/-- A proper node is read as its tokens. -/
theorem foldl_read_write : ∀ (node : Node), node.isProper = true → ∀ ts,
    node.write.toList.foldl read (.content, ts) = (.content, ts ++ node.tokens)
  | text s, h, ts => by
    rw [isProper] at h
    rw [write, tokens, foldl_read_plain h]
  | empty tag attributes, h, ts => by
    rw [isProper, Bool.and_eq_true] at h
    rw [write, tokens, foldl_read_openTag h.1]
  | element tag attributes content, h, ts => by
    rw [isProper, Bool.and_eq_true, Bool.and_eq_true] at h
    obtain ⟨⟨htag, -⟩, hcontent⟩ := h
    rw [write, tokens, String.toList_append, String.toList_append, List.foldl_append,
      List.foldl_append, foldl_read_openTag htag, foldl_read_writeAll content hcontent,
      foldl_read_closeTag (tagOk_iff.mp htag).1]
    simp

theorem foldl_read_writeAll : ∀ (nodes : List Node), areProper nodes = true → ∀ ts,
    (writeAll nodes).toList.foldl read (.content, ts) = (.content, ts ++ tokensAll nodes)
  | [], _, ts => by rw [writeAll, tokensAll, List.append_nil]; rfl
  | node :: nodes, h, ts => by
    rw [areProper, Bool.and_eq_true] at h
    rw [writeAll, tokensAll, String.toList_append, List.foldl_append, foldl_read_write node h.1,
      foldl_read_writeAll nodes h.2, List.append_assoc]

end

/-- Proper nodes are read as their tokens. -/
theorem tokenize_writeAll {nodes : List Node} (h : areProper nodes = true) :
    tokenize (writeAll nodes) = some (tokensAll nodes) := by
  rw [tokenize, foldl_read_writeAll nodes h]
  rfl

/-! ### What is opened is closed -/

theorem nests_chars (stack : List String) (cs : List Char) (rest : List Token) :
    nests stack (cs.map .char ++ rest) = nests stack rest := by
  induction cs with
  | nil => rfl
  | cons c cs ih => rw [List.map_cons, List.cons_append, nests, ih]

mutual

/-- After the tokens of a proper node, the same elements are open as before. -/
theorem nests_tokens : ∀ (node : Node), node.isProper = true → ∀ stack rest,
    nests stack (node.tokens ++ rest) = nests stack rest
  | text s, _, stack, rest => by rw [tokens, nests_chars]
  | empty tag attributes, h, stack, rest => by
    rw [isProper, Bool.and_eq_true] at h
    rw [tokens, List.singleton_append, nests, if_pos h.2]
  | element tag attributes content, h, stack, rest => by
    rw [isProper, Bool.and_eq_true, Bool.and_eq_true, Bool.not_eq_true'] at h
    obtain ⟨⟨-, hvoid⟩, hcontent⟩ := h
    rw [tokens, List.cons_append, List.cons_append, List.append_assoc, nests,
      if_neg (by simp [hvoid]), nests_tokensAll content hcontent, List.singleton_append, nests]
    simp

theorem nests_tokensAll : ∀ (nodes : List Node), areProper nodes = true → ∀ stack rest,
    nests stack (tokensAll nodes ++ rest) = nests stack rest
  | [], _, _, _ => by rw [tokensAll, List.nil_append]
  | node :: nodes, h, stack, rest => by
    rw [areProper, Bool.and_eq_true] at h
    rw [tokensAll, List.append_assoc, nests_tokens node h.1, nests_tokensAll nodes h.2]

end

/-! ### What the tokens say -/

section Gather

variable {β : Type} {f : Token → Option β} {nodes : List Node} {tag : String}
  {attributes : List (String × String)}

/-- What a function finds in the tokens of nodes in a row. -/
def gather (f : Token → Option β) (nodes : List Node) : List β := (tokensAll nodes).filterMap f

@[simp]
theorem gather_nil : gather f [] = [] := rfl

theorem gather_cons (node : Node) :
    gather f (node :: nodes) = node.tokens.filterMap f ++ gather f nodes := by
  rw [gather, tokensAll, List.filterMap_append]; rfl

theorem gather_text (hf : ∀ c, f (.char c) = none) (s : String) :
    gather f (text s :: nodes) = gather f nodes := by
  have hnone : (s.toList.map Token.char).filterMap f = [] := by simp [hf]
  rw [gather_cons, tokens, hnone, List.nil_append]

theorem gather_empty :
    gather f (empty tag attributes :: nodes) =
      (f (.opening tag attributes)).toList ++ gather f nodes := by
  rw [gather_cons, tokens, List.filterMap_eq_flatMap_toList, List.flatMap_singleton]

theorem gather_element (content : List Node) :
    gather f (element tag attributes content :: nodes) =
      (f (.opening tag attributes)).toList ++ gather f content ++
        (f (.closing tag)).toList ++ gather f nodes := by
  rw [gather_cons, tokens]
  simp only [gather, List.filterMap_eq_flatMap_toList, List.cons_append, List.flatMap_cons,
    List.flatMap_append, List.flatMap_nil, List.append_nil, List.append_assoc]

theorem gather_append (nodes' : List Node) :
    gather f (nodes ++ nodes') = gather f nodes ++ gather f nodes' := by
  induction nodes with
  | nil => rfl
  | cons node nodes ih =>
    rw [List.cons_append, gather_cons, ih, gather_cons, List.append_assoc]

theorem gather_flatMap {α : Type} (g : α → List Node) (xs : List α) :
    gather f (xs.flatMap g) = xs.flatMap fun x => gather f (g x) := by
  induction xs with
  | nil => rfl
  | cons x xs ih => rw [List.flatMap_cons, gather_append, ih, List.flatMap_cons]

end Gather

mutual

/-- The delimiters of a proper node are those of its tags. -/
theorem filter_isDelimiter_write : ∀ (node : Node), node.isProper = true →
    node.write.toList.filter isDelimiter = (gather Token.tag? [node]).flatMap Tag.delimiters
  | text s, h => by
    rw [isProper] at h
    rw [write, filter_isDelimiter_plain h, gather_text fun _ => rfl]; rfl
  | empty tag attributes, h => by
    rw [isProper, Bool.and_eq_true] at h
    rw [write, filter_isDelimiter_openTag h.1, gather_empty]
    simp [Token.tag?]
  | element tag attributes content, h => by
    rw [isProper, Bool.and_eq_true, Bool.and_eq_true] at h
    obtain ⟨⟨htag, -⟩, hcontent⟩ := h
    rw [write, String.toList_append, String.toList_append, List.filter_append, List.filter_append,
      filter_isDelimiter_openTag htag, filter_isDelimiter_writeAll content hcontent,
      filter_isDelimiter_closeTag (tagOk_iff.mp htag).1, gather_element]
    simp [Token.tag?]

theorem filter_isDelimiter_writeAll : ∀ (nodes : List Node), areProper nodes = true →
    (writeAll nodes).toList.filter isDelimiter =
      (gather Token.tag? nodes).flatMap Tag.delimiters
  | [], _ => rfl
  | node :: nodes, h => by
    rw [areProper, Bool.and_eq_true] at h
    rw [writeAll, String.toList_append, List.filter_append, filter_isDelimiter_write node h.1,
      filter_isDelimiter_writeAll nodes h.2, ← List.flatMap_append, ← gather_append]
    rfl

end

end Node

end WallCalendar.Markup
