import Roomcast.Json.Parser
import Roomcast.Proofs.Lexing

/-!
# Written trees

A text is read as a tree just if it is laid out from the tokens of that tree, whatever the tree
holds and however deep it is. In the tokens of a tree no two words touch, so they are read as
tokens; and the parser, wherever it waits for a value, goes over the tokens of a tree and has that
tree as the value. Conversely, what the parser holds at any moment tells which tokens it has taken.
-/

namespace Roomcast.Json

open Token (Apart)

namespace Tree

/-- A tree of which all numbers and strings can be written. -/
def IsWritten (t : Tree) : Prop := ∀ u ∈ t.tokens, u.IsWritten

theorem mem_itemTokens {u : Token} {items : List Tree} (among : u ∈ itemTokens items) :
    u = .comma ∨ ∃ t ∈ items, u ∈ t.tokens := by
  induction items with
  | nil => simp [itemTokens] at among
  | cons t rest ih =>
      cases rest with
      | nil => exact .inr ⟨t, List.mem_cons_self, among⟩
      | cons t' rest =>
          rw [itemTokens, List.mem_append, List.mem_cons] at among
          · obtain first | rfl | later := among
            · exact .inr ⟨t, List.mem_cons_self, first⟩
            · exact .inl rfl
            · obtain comma | ⟨t'', inside, among⟩ := ih later
              · exact .inl comma
              · exact .inr ⟨t'', List.mem_cons_of_mem _ inside, among⟩
          · exact List.cons_ne_nil _ _

theorem mem_fieldTokens {u : Token} {fields : Fields} (among : u ∈ fieldTokens fields) :
    u = .comma ∨ u = .colon ∨ ∃ f ∈ fields, u = .string f.1 ∨ u ∈ f.2.tokens := by
  induction fields with
  | nil => simp [fieldTokens] at among
  | cons f rest ih =>
      obtain ⟨name, t⟩ := f
      have own : ∀ v : Token, v ∈ [.string name, .colon] ++ t.tokens → v = u →
          u = .comma ∨ u = .colon ∨ ∃ f ∈ (name, t) :: rest, u = .string f.1 ∨ u ∈ f.2.tokens := by
        rintro v inside rfl
        rw [List.mem_append, List.mem_cons, List.mem_singleton] at inside
        obtain (rfl | rfl) | inside := inside
        · exact .inr (.inr ⟨_, List.mem_cons_self, .inl rfl⟩)
        · exact .inr (.inl rfl)
        · exact .inr (.inr ⟨_, List.mem_cons_self, .inr inside⟩)
      cases rest with
      | nil => exact own u among rfl
      | cons f' rest =>
          have split : fieldTokens ((name, t) :: f' :: rest) =
              ([.string name, .colon] ++ t.tokens) ++ .comma :: fieldTokens (f' :: rest) := by
            simp [fieldTokens]
          rw [split, List.mem_append, List.mem_cons] at among
          obtain first | rfl | later := among
          · exact own u first rfl
          · exact .inl rfl
          · obtain comma | colon | ⟨f'', inside, among⟩ := ih later
            · exact .inl comma
            · exact .inr (.inl colon)
            · exact .inr (.inr ⟨f'', List.mem_cons_of_mem _ inside, among⟩)

theorem isWritten_array {items : List Tree} (h : ∀ t ∈ items, t.IsWritten) :
    (array items).IsWritten := by
  intro u among
  rw [tokens, List.mem_append, List.mem_cons, List.mem_singleton] at among
  obtain (rfl | inside) | rfl := among
  · trivial
  · obtain rfl | ⟨t, among, inside⟩ := mem_itemTokens inside
    · trivial
    · exact h t among u inside
  · trivial

theorem isWritten_object {fields : Fields}
    (h : ∀ f ∈ fields, (∀ p ∈ f.1, p.IsWritten) ∧ f.2.IsWritten) : (object fields).IsWritten := by
  intro u among
  rw [tokens, List.mem_append, List.mem_cons, List.mem_singleton] at among
  obtain (rfl | inside) | rfl := among
  · trivial
  · obtain rfl | rfl | ⟨f, among, rfl | inside⟩ := mem_fieldTokens inside
    · trivial
    · trivial
    · exact (h f among).1
    · exact (h f among).2 u inside
  · trivial

theorem isChain_joined (xs : List Token) {ys : List Token} {u : Token} (between : u.isWord = false)
    (before : xs.IsChain Apart) (behind : ys.IsChain Apart) : (xs ++ u :: ys).IsChain Apart := by
  refine List.isChain_append.2 ⟨before, ?_, ?_⟩
  · cases ys with
    | nil => exact .singleton u
    | cons y ys => exact .cons_cons (.inl between) behind
  · intro x _ y first
    rw [List.head?_cons, Option.mem_some_iff] at first
    rw [← first]
    exact .inr between

mutual

/-- In the tokens of a tree no two words touch. -/
theorem tokens_apart : ∀ t : Tree, t.tokens.IsChain Apart
  | .null | .bool _ | .number _ | .string _ => by
      rw [tokens]
      exact .singleton _
  | .array items => by
      rw [tokens]
      exact isChain_joined _ rfl
        (isChain_joined [] rfl .nil (itemTokens_apart items)) .nil
  | .object fields => by
      rw [tokens]
      exact isChain_joined _ rfl
        (isChain_joined [] rfl .nil (fieldTokens_apart fields)) .nil

theorem itemTokens_apart : ∀ items : List Tree, (itemTokens items).IsChain Apart
  | [] => by
      rw [itemTokens]
      exact .nil
  | [t] => by
      rw [itemTokens]
      exact tokens_apart t
  | t :: t' :: rest => by
      rw [itemTokens]
      · exact isChain_joined _ rfl (tokens_apart t) (itemTokens_apart (t' :: rest))
      · exact List.cons_ne_nil _ _

theorem fieldTokens_apart : ∀ fields : Fields, (fieldTokens fields).IsChain Apart
  | [] => by
      rw [fieldTokens]
      exact .nil
  | [(name, t)] => by
      rw [fieldTokens]
      exact isChain_joined [] rfl .nil
        (isChain_joined [] rfl .nil (tokens_apart t))
  | (name, t) :: f :: rest => by
      rw [fieldTokens]
      · exact isChain_joined (.string name :: .colon :: t.tokens) rfl
          (isChain_joined [] rfl .nil
            (isChain_joined [] rfl .nil (tokens_apart t)))
          (fieldTokens_apart (f :: rest))
      · exact List.cons_ne_nil _ _

end

end Tree

namespace Parser

def read? (p : Parser) (us : List Token) : Option Parser := us.foldlM step? p

theorem read?_append (p : Parser) (us vs : List Token) :
    p.read? (us ++ vs) = (p.read? us).bind (·.read? vs) := List.foldlM_append

/-- The first item of an array is read as any value is. -/
theorem read?_firstItem (t : Tree) (stack : List Layer) :
    (⟨stack, .firstItem⟩ : Parser).read? t.tokens = (⟨stack, .value⟩ : Parser).read? t.tokens := by
  -- No tree begins as an array ends.
  obtain ⟨u, us, begins, other⟩ : ∃ u us, t.tokens = u :: us ∧ u ≠ .closeArray := by
    cases t <;> simp [Tree.tokens]
  rw [begins, read?, read?, List.foldlM_cons, List.foldlM_cons]
  cases u <;> first | rfl | exact absurd rfl other

mutual

/-- Where a value is wanted, the tokens of a tree make that tree the value. -/
theorem read?_tokens : ∀ (t : Tree) (stack : List Layer),
    (⟨stack, .value⟩ : Parser).read? t.tokens = some ⟨stack, .next t⟩
  | .null, _ | .bool _, _ | .number _, _ | .string _, _ => by
      rw [Tree.tokens]
      rfl
  | .array [], _ => by
      rw [Tree.tokens, Tree.itemTokens]
      rfl
  | .array (t :: rest), stack => by
      have items := read?_itemTokens (t :: rest) stack [] (List.cons_ne_nil _ _)
      obtain ⟨us, begins⟩ : ∃ us, Tree.itemTokens (t :: rest) = t.tokens ++ us := by
        cases rest with
        | nil => exact ⟨[], by rw [Tree.itemTokens, List.append_nil]⟩
        | cons t' rest => exact ⟨.comma :: Tree.itemTokens (t' :: rest), by simp [Tree.itemTokens]⟩
      rw [begins, List.append_assoc, read?_append] at items
      rw [Tree.tokens, List.cons_append]
      show (⟨.array [] :: stack, .firstItem⟩ : Parser).read? _ = _
      rw [begins, List.append_assoc, read?_append, read?_firstItem, items]
      rfl
  | .object [], _ => by
      rw [Tree.tokens, Tree.fieldTokens]
      rfl
  | .object (f :: rest), stack => by
      rw [Tree.tokens]
      exact read?_fieldTokens (f :: rest) stack [] true (List.cons_ne_nil _ _)

/-- Behind some items of an array, the tokens of the others and its end complete the array. -/
theorem read?_itemTokens : ∀ (items : List Tree) (stack : List Layer) (done : List Tree),
    items ≠ [] → (⟨.array done :: stack, .value⟩ : Parser).read?
      (Tree.itemTokens items ++ [.closeArray]) =
        some ⟨stack, .next (.array (done.reverse ++ items))⟩
  | [], _, _, nonempty => absurd rfl nonempty
  | [t], stack, done, _ => by
      rw [Tree.itemTokens, read?_append, read?_tokens t]
      show some (⟨stack, .next (.array (t :: done).reverse)⟩ : Parser) = _
      rw [List.reverse_cons]
  | t :: t' :: rest, stack, done, _ => by
      rw [Tree.itemTokens]
      · rw [List.append_assoc, read?_append, read?_tokens t]
        show (⟨.array (t :: done) :: stack, .value⟩ : Parser).read?
          (Tree.itemTokens (t' :: rest) ++ [.closeArray]) = _
        rw [read?_itemTokens (t' :: rest) stack (t :: done) (List.cons_ne_nil _ _)]
        simp
      · exact List.cons_ne_nil _ _

/-- Behind some fields of an object, the tokens of the others and its end complete the object. -/
theorem read?_fieldTokens : ∀ (fields : Fields) (stack : List Layer) (done : Fields)
    (first : Bool), fields ≠ [] → (⟨stack, .name done first⟩ : Parser).read?
      (Tree.fieldTokens fields ++ [.closeObject]) =
        some ⟨stack, .next (.object (done.reverse ++ fields))⟩
  | [], _, _, _, nonempty => absurd rfl nonempty
  | [(name, t)], stack, done, _, _ => by
      rw [Tree.fieldTokens]
      show (⟨.object done name :: stack, .value⟩ : Parser).read? (t.tokens ++ [.closeObject]) = _
      rw [read?_append, read?_tokens t]
      show some (⟨stack, .next (.object ((name, t) :: done).reverse)⟩ : Parser) = _
      rw [List.reverse_cons]
  | (name, t) :: f :: rest, stack, done, _, _ => by
      rw [Tree.fieldTokens]
      · show (⟨.object done name :: stack, .value⟩ : Parser).read?
          (t.tokens ++ .comma :: Tree.fieldTokens (f :: rest) ++ [.closeObject]) = _
        rw [List.append_assoc, read?_append, read?_tokens t]
        show (⟨stack, .name ((name, t) :: done) false⟩ : Parser).read?
          (Tree.fieldTokens (f :: rest) ++ [.closeObject]) = _
        rw [read?_fieldTokens (f :: rest) stack ((name, t) :: done) false (List.cons_ne_nil _ _)]
        simp
      · exact List.cons_ne_nil _ _

end

end Parser

namespace Parser

/-- The tokens of some items, each with a comma behind it. -/
def itemsTaken (items : List Tree) : List Token := items.flatMap fun t => t.tokens ++ [.comma]

def fieldsTaken (fields : Fields) : List Token :=
  fields.flatMap fun f => .string f.1 :: .colon :: f.2.tokens ++ [.comma]

/-- The tokens of an array or object that is still open. -/
def layerTaken : Layer → List Token
  | .array items => .openArray :: itemsTaken items.reverse
  | .object fields name => .openObject :: fieldsTaken fields.reverse ++ [.string name, .colon]

/-- The tokens of all that is still open. -/
def stackTaken (stack : List Layer) : List Token := stack.reverse.flatMap layerTaken

/-- The tokens behind those of the stack. -/
def wantTaken : Want → List Token
  | .value | .firstItem => []
  | .name fields _ => .openObject :: fieldsTaken fields.reverse
  | .colon fields name => .openObject :: fieldsTaken fields.reverse ++ [.string name]
  | .next value => value.tokens

/-- What a parser holds tells what it has taken. -/
structure Took (p : Parser) (us : List Token) : Prop where
  tokens : us = stackTaken p.stack ++ wantTaken p.want
  /-- Only an object without fields may end where a name is wanted. -/
  first : ∀ fields, p.want = .name fields true → fields = []

variable {p p' : Parser} {us : List Token} {u : Token}

theorem itemTokens_snoc (items : List Tree) (t : Tree) :
    Tree.itemTokens (items ++ [t]) = itemsTaken items ++ t.tokens := by
  induction items with
  | nil => rw [List.nil_append, Tree.itemTokens, itemsTaken, List.flatMap_nil, List.nil_append]
  | cons t' items ih =>
      rw [List.cons_append, Tree.itemTokens, ih]
      · simp [itemsTaken]
      · simp

theorem fieldTokens_snoc (fields : Fields) (name : List Piece) (t : Tree) :
    Tree.fieldTokens (fields ++ [(name, t)]) =
      fieldsTaken fields ++ .string name :: .colon :: t.tokens := by
  induction fields with
  | nil => rw [List.nil_append, Tree.fieldTokens, fieldsTaken, List.flatMap_nil, List.nil_append]
  | cons f fields ih =>
      rw [List.cons_append, Tree.fieldTokens, ih]
      · simp [fieldsTaken]
      · simp

theorem stackTaken_cons (layer : Layer) (stack : List Layer) :
    stackTaken (layer :: stack) = stackTaken stack ++ layerTaken layer := by
  simp [stackTaken]

theorem took_begin {stack : List Layer} (began : begin? stack u = some p) :
    Took p (stackTaken stack ++ [u]) := by
  unfold begin? at began
  split at began <;> cases began
  case h_5 => exact ⟨by simp [stackTaken_cons, layerTaken, itemsTaken, wantTaken], nofun⟩
  case h_6 =>
    refine ⟨by simp [fieldsTaken, wantTaken], fun fields same => ?_⟩
    cases same
    rfl
  all_goals exact ⟨by simp [wantTaken, Tree.tokens], nofun⟩

theorem took_next {value : Tree} {stack : List Layer} (followed : next? value stack u = some p) :
    Took p (stackTaken stack ++ value.tokens ++ [u]) := by
  unfold next? at followed
  split at followed <;> cases followed
  case h_1 => exact ⟨by simp [stackTaken_cons, layerTaken, itemsTaken, wantTaken], nofun⟩
  case h_2 =>
    refine ⟨?_, nofun⟩
    rw [wantTaken, Tree.tokens, List.reverse_cons, itemTokens_snoc, stackTaken_cons, layerTaken]
    simp
  case h_3 => exact ⟨by simp [stackTaken_cons, layerTaken, fieldsTaken, wantTaken], nofun⟩
  case h_4 =>
    refine ⟨?_, nofun⟩
    rw [wantTaken, Tree.tokens, List.reverse_cons, fieldTokens_snoc, stackTaken_cons, layerTaken]
    simp

theorem Took.step (h : Took p us) (stepped : p.step? u = some p') : Took p' (us ++ [u]) := by
  obtain ⟨stack, want⟩ := p
  obtain rfl := h.tokens
  cases want with
  | value =>
      rw [wantTaken, List.append_nil]
      exact took_begin stepped
  | firstItem =>
      rw [wantTaken, List.append_nil]
      unfold step? at stepped
      split at stepped <;> try contradiction
      case h_2 =>
        split at stepped <;> cases stepped
        rename_i same
        obtain rfl : stack = _ := same
        exact ⟨by simp [stackTaken_cons, layerTaken, itemsTaken, wantTaken, Tree.tokens,
          Tree.itemTokens], nofun⟩
      case h_3 => exact took_begin stepped
  | name fields first =>
      unfold step? at stepped
      split at stepped <;> try contradiction
      case h_4 same =>
        cases same
        cases stepped
        exact ⟨by simp [wantTaken], nofun⟩
      case h_5 same =>
        cases same
        cases stepped
        obtain rfl := h.first fields rfl
        exact ⟨by simp [wantTaken, fieldsTaken, Tree.tokens, Tree.fieldTokens], nofun⟩
  | colon fields name =>
      unfold step? at stepped
      split at stepped <;> try contradiction
      case h_6 same =>
        cases same
        cases stepped
        exact ⟨by simp [stackTaken_cons, layerTaken, wantTaken], nofun⟩
  | next value =>
      have followed : next? value stack u = some p' := by
        cases u <;> exact stepped
      exact took_next followed

theorem Took.read {vs : List Token} (h : Took p us) (read : p.read? vs = some p') :
    Took p' (us ++ vs) := by
  induction vs generalizing p us with
  | nil =>
      obtain rfl := Option.some.inj read
      rwa [List.append_nil]
  | cons v vs ih =>
      rw [read?, List.foldlM_cons] at read
      obtain ⟨p₁, stepped, read⟩ := Option.bind_eq_some_iff.1 read
      rw [List.append_cons]
      exact ih (h.step stepped) read

end Parser

namespace Tree

/-- A tree is read back from its tokens. -/
theorem ofTokens?_tokens (t : Tree) : ofTokens? t.tokens = some t := by
  show (Parser.read? ⟨[], .value⟩ t.tokens).bind _ = _
  rw [Parser.read?_tokens]
  rfl

theorem tokens_of_ofTokens? {us : List Token} {t : Tree} (read : ofTokens? us = some t) :
    us = t.tokens := by
  obtain ⟨p, read, finished⟩ := Option.bind_eq_some_iff.1 read
  have start : Parser.Took Parser.start [] := ⟨rfl, nofun⟩
  have took := (start.read read).tokens
  rw [Parser.finish?] at finished
  split at finished
  case h_1 closed complete =>
    obtain rfl := Option.some.inj finished
    rwa [closed, complete] at took
  case h_2 => cases finished

/-- A text is a way to write a tree. -/
def Writes (t : Tree) (s : List Char) : Prop := Laid t.tokens s

/-- A text is read as a tree just if it is a way to write that tree. -/
theorem parse?_eq_some {t : Tree} {s : List Char} : parse? s = some t ↔ t.Writes s := by
  constructor
  · intro read
    obtain ⟨us, lexed, parsed⟩ := Option.bind_eq_some_iff.1 read
    have laid := laid_of_lex? lexed
    rwa [tokens_of_ofTokens? parsed] at laid
  · intro laid
    rw [parse?, lex?_of_laid laid t.tokens_apart, Option.bind_some, ofTokens?_tokens]

/-- A text is a way to write one tree at most. -/
theorem Writes.unique {t u : Tree} {s : List Char} (h : t.Writes s) (h' : u.Writes s) : t = u :=
  Option.some.inj ((parse?_eq_some.2 h).symm.trans (parse?_eq_some.2 h'))

/-- The written form of a tree is a way to write it. -/
theorem IsWritten.writes {t : Tree} (written : t.IsWritten) : t.Writes t.render :=
  Laid.start.append written

/-- A tree is read back from its written form. -/
theorem parse?_render {t : Tree} (written : t.IsWritten) : parse? t.render = some t :=
  parse?_eq_some.2 written.writes

end Tree

end Roomcast.Json
