import LoreTree.Proofs.Document.Parsing
/-!
The syntax of documents. A document is what the tokens of a text spell, its numbers digit by digit;
it is read as its value, unless it is larger than the bounds allow.
-/

namespace LoreTree.Json

inductive Document
  | word (value : Json)
  | number (n : Numeral)
  | text (s : String)
  | array (items : List Document)
  | object (members : List (String × Document))

namespace Document

section Folds

variable {α : Type}

/-- What a function on documents gives for each form, from what it gives for the parts. -/
structure Cases (α : Type) where
  word : Json → α
  number : Numeral → α
  text : String → α
  array : List α → α
  object : List (String × α) → α

mutual

def fold (c : Cases α) : Document → α
  | .word v => c.word v
  | .number n => c.number n
  | .text s => c.text s
  | .array items => c.array (foldItems c items)
  | .object members => c.object (foldMembers c members)

def foldItems (c : Cases α) : List Document → List α
  | [] => []
  | d :: ds => fold c d :: foldItems c ds

def foldMembers (c : Cases α) : List (String × Document) → List (String × α)
  | [] => []
  | (name, d) :: rest => (name, fold c d) :: foldMembers c rest

end

theorem fold_array (c : Cases α) (items : List Document) :
    (array items).fold c = c.array (items.map (fold c)) := by
  have each : foldItems c items = items.map (fold c) := by
    induction items with
    | nil => rfl
    | cons d items ih => simp [foldItems, ih]
  rw [fold, each]

theorem fold_object (c : Cases α) (members : List (String × Document)) :
    (object members).fold c = c.object (members.map fun m => (m.1, m.2.fold c)) := by
  have each : foldMembers c members = members.map fun m => (m.1, m.2.fold c) := by
    induction members with
    | nil => rfl
    | cons m members ih => simp [foldMembers, ih]
  rw [fold, each]

end Folds

/-- What holds of a document if it holds of its parts holds of every document. -/
theorem induction {P : Document → Prop} (word : ∀ v, P (.word v)) (number : ∀ n, P (.number n))
    (text : ∀ s, P (.text s)) (array : ∀ items, (∀ d ∈ items, P d) → P (.array items))
    (object : ∀ members : List (String × Document), (∀ m ∈ members, P m.2) → P (.object members))
    (d : Document) : P d :=
  @Document.rec P (fun items => ∀ d ∈ items, P d) (fun members => ∀ m ∈ members, P m.2)
    (fun m => P m.2) word number text array object
    nofun (fun _ _ first rest => List.forall_mem_cons.2 ⟨first, rest⟩)
    nofun (fun _ _ first rest => List.forall_mem_cons.2 ⟨first, rest⟩) (fun _ _ h => h) d

def value : Document → Json :=
  fold ⟨id, Numeral.toJson, .text, .array, .object⟩

def tokens : Document → List Token :=
  fold {
    word := fun v => [.word v]
    number := fun n => [.number n]
    text := fun s => [.text s]
    array := fun items => .openArray :: List.intercalate [.comma] items ++ [.closeArray]
    object := fun members =>
      .openObject ::
        List.intercalate [.comma] (members.map fun m => .text m.1 :: .colon :: m.2) ++
        [.closeObject] }

def fits (b : Bounds) : Document → Nat → Bool :=
  fold {
    word := fun _ => Reader.within b.depth
    number := fun n depth => Reader.within b.depth depth && Reader.within b.whole n.signedWhole.length
    text := fun _ => Reader.within b.depth
    array := fun items depth => Reader.within b.depth depth && items.all (· (depth + 1))
    object := fun members depth => Reader.within b.depth depth && members.all (·.2 (depth + 1)) }

section Parts

variable (items : List Document) (members : List (String × Document))

@[simp] theorem value_array : (array items).value = .array (items.map value) :=
  fold_array ..

@[simp] theorem value_object :
    (object members).value = .object (members.map fun m => (m.1, m.2.value)) :=
  fold_object ..

theorem tokens_array : (array items).tokens =
    .openArray :: List.intercalate [.comma] (items.map tokens) ++ [.closeArray] :=
  fold_array ..

theorem tokens_object : (object members).tokens =
    .openObject ::
      List.intercalate [.comma] (members.map fun m => .text m.1 :: .colon :: m.2.tokens) ++
      [.closeObject] := by
  simp only [tokens, fold_object, List.map_map]
  rfl

theorem fits_array (b : Bounds) : (array items).fits b = fun depth =>
    Reader.within b.depth depth && items.all (·.fits b (depth + 1)) := by
  funext depth
  simp only [fits, fold_array, List.all_map]
  rfl

theorem fits_object (b : Bounds) : (object members).fits b = fun depth =>
    Reader.within b.depth depth && members.all (·.2.fits b (depth + 1)) := by
  funext depth
  simp only [fits, fold_object, List.all_map]
  rfl

end Parts

theorem within_of_fits {b : Bounds} (d : Document) (depth : Nat) (h : d.fits b depth = true) :
    Reader.within b.depth depth = true := by
  cases d with
  | word | text => exact h
  | number => exact (Bool.and_eq_true_iff.1 h).1
  | array items =>
    rw [fits_array] at h
    exact (Bool.and_eq_true_iff.1 h).1
  | object members =>
    rw [fits_object] at h
    exact (Bool.and_eq_true_iff.1 h).1

theorem fits_unbounded (d : Document) (depth : Nat) : d.fits {} depth = true := by
  induction d using induction generalizing depth with
  | word | number | text => rfl
  | array items each =>
    rw [fits_array]
    exact List.all_eq_true.2 fun d member => each d member (depth + 1)
  | object members each =>
    rw [fits_object]
    exact List.all_eq_true.2 fun m member => each m member (depth + 1)

theorem reads_tokens (b : Bounds) (d : Document) : Reader.Reads b d.tokens (d.fits b) d.value := by
  induction d using induction with
  | word v => exact Reader.reads_word v
  | number n => exact Reader.reads_number n
  | text s => exact Reader.reads_text s
  | array items each =>
    rw [tokens_array, fits_array, value_array]
    exact Reader.reads_array each
  | object members each =>
    rw [tokens_object, fits_object, value_object]
    exact Reader.reads_object each fun m _ => m.2.within_of_fits

end Document

/-- A document together with a text of it. -/
structure Source where
  document : Document
  text : String
  written : Token.ofChars? text.toList = some document.tokens

namespace Source

variable {s t : Source}

theorem ofString?_text (s : Source) (b : Bounds) :
    ofString? b s.text = ofTokens? b s.document.tokens := by
  rw [ofString?, ofChars?, s.written]
  rfl

theorem value_eq_of_tokens (same : s.document.tokens = t.document.tokens) :
    s.document.value = t.document.value := by
  have first := (s.document.reads_tokens {}).ofTokens?
  have second := (t.document.reads_tokens {}).ofTokens?
  rw [same, second, Document.fits_unbounded, Document.fits_unbounded] at first
  exact (Option.some.inj first).symm

end Source

end LoreTree.Json
