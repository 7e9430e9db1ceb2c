import LoreTree.Json.Reader
import LoreTree.Proofs.Document.Lexing
/-!
The tokens of a value are read as that value, unless it is larger than the bounds allow: then they
are not read at all.
-/

namespace LoreTree.Json

mutual

/-- Whether a value inside of `depth` containers is read: every value and every name in it is checked
against the depth, every integer against the length. -/
def fits (b : Bounds) (depth : Nat) : Json → Bool
  | .int n =>
    Reader.within b.depth depth && Reader.within b.whole (Decimal.ofInt n).length
  | .array items => Reader.within b.depth depth && itemsFit b (depth + 1) items
  | .object members => Reader.within b.depth depth && membersFit b (depth + 1) members
  | _ => Reader.within b.depth depth

def itemsFit (b : Bounds) (depth : Nat) : List Json → Bool
  | [] => true
  | v :: vs => v.fits b depth && itemsFit b depth vs

def membersFit (b : Bounds) (depth : Nat) : List (String × Json) → Bool
  | [] => true
  | (_, v) :: rest => v.fits b depth && membersFit b depth rest

end

theorem within_of_fits {b : Bounds} {depth : Nat} {v : Json} (h : v.fits b depth = true) :
    Reader.within b.depth depth = true := by
  cases v <;> simp_all [fits]

theorem itemsFit_eq (b : Bounds) (depth : Nat) (items : List Json) :
    itemsFit b depth items = items.all (fits b depth) := by
  induction items with
  | nil => rfl
  | cons v items ih => simp [itemsFit, ih]

theorem membersFit_eq (b : Bounds) (depth : Nat) (members : List (String × Json)) :
    membersFit b depth members = members.all (fits b depth ·.2) := by
  induction members with
  | nil => rfl
  | cons member members ih => simp [membersFit, ih]

theorem itemTokens_eq (items : List Json) : itemTokens items = items.map tokens := by
  induction items with
  | nil => rfl
  | cons v items ih => simp [itemTokens, ih]

theorem memberTokens_eq (members : List (String × Json)) :
    memberTokens members = members.map fun (name, v) => .text name :: .colon :: v.tokens := by
  induction members with
  | nil => rfl
  | cons member members ih => simp [memberTokens, ih]

def Awaits.Ready (a : Awaits) : Prop :=
  a = .value ∨ a = .valueOrClose

def Awaits.Named (a : Awaits) : Prop :=
  a = .name ∨ a = .nameOrClose

namespace Reader

variable {b : Bounds} {a : Awaits} {frames : List Frame}

/-- What reading a whole value does: where it fits, it is delivered. -/
def accept (fits : Nat → Bool) (v : Json) (frames : List Frame) : Option Reader :=
  if fits frames.length then deliver v frames else none

/-- The tokens are read as the value in every place where it fits, and nowhere else. -/
def Reads (b : Bounds) (ts : List Token) (fits : Nat → Bool) (v : Json) : Prop :=
  ∀ a frames, a.Ready → ts.foldlM (feed b) ⟨a, frames⟩ = accept fits v frames

theorem foldlM_feed_cons (r : Reader) (t : Token) (ts : List Token) :
    (t :: ts).foldlM (feed b) r = (feed b r t).bind (ts.foldlM (feed b)) := rfl

theorem feed_first {t : Token} (ready : a.Ready) (begins : t ≠ .closeArray) :
    feed b ⟨a, frames⟩ t = enter b frames t := by
  rcases ready with rfl | rfl
  · rfl
  · cases t with
    | closeArray => exact absurd rfl begins
    | _ => rfl

theorem reads_token {fits : Nat → Bool} {v : Json} {t : Token} (begins : t ≠ .closeArray)
    (entered : ∀ frames, enter b frames t = accept fits v frames) : Reads b [t] fits v := by
  intro a frames ready
  rw [foldlM_feed_cons, feed_first ready begins, entered]
  cases accept fits v frames <;> rfl

theorem reads_text (s : String) : Reads b [.text s] (within b.depth) (.text s) := by
  refine reads_token nofun fun frames => ?_
  by_cases deep : within b.depth frames.length = true
  · simp [enter, accept, deep]
  · simp [enter, accept, deep]

theorem reads_word (v : Json) : Reads b [.word v] (within b.depth) v := by
  refine reads_token nofun fun frames => ?_
  by_cases deep : within b.depth frames.length = true
  · simp [enter, accept, deep]
  · simp [enter, accept, deep]

theorem reads_number (n : Numeral) :
    Reads b [.number n] (fun depth => within b.depth depth && within b.whole n.signedWhole.length)
      n.toJson := by
  refine reads_token nofun fun frames => ?_
  by_cases deep : within b.depth frames.length = true
  · simp [enter, accept, deep]
  · simp [enter, accept, deep]

section Containers

variable {α : Type} {ready : Awaits → Prop} {inside : List α → Frame} {piece : α → List Token}
  {fits : α → Bool} {next : Awaits}

/-- The tokens of one piece of a container put it there, where it fits. -/
def Adds (b : Bounds) (frames : List Frame) (ready : Awaits → Prop) (inside : List α → Frame)
    (piece : α → List Token) (fits : α → Bool) (x : α) : Prop :=
  ∀ a read, ready a → (piece x).foldlM (feed b) ⟨a, inside read :: frames⟩ =
    if fits x then some ⟨.commaOrClose, inside (x :: read) :: frames⟩ else none

/-- Pieces that are read one by one are read as a whole with commas between them. -/
theorem foldlM_pieces (again : ready next)
    (comma : ∀ read, feed b ⟨.commaOrClose, inside read :: frames⟩ .comma =
      some ⟨next, inside read :: frames⟩)
    (x : α) (xs read : List α) (start : ready a)
    (each : ∀ y ∈ x :: xs, Adds b frames ready inside piece fits y) :
    (List.intercalate [.comma] ((x :: xs).map piece)).foldlM (feed b) ⟨a, inside read :: frames⟩ =
      if (x :: xs).all fits then some ⟨.commaOrClose, inside ((x :: xs).reverse ++ read) :: frames⟩
      else none := by
  -- `read` holds the pieces that are in the container already, the last one first
  induction xs generalizing x read a with
  | nil => simp [List.intercalate_singleton, each x List.mem_cons_self a read start]
  | cons y xs ih =>
    obtain ⟨head, tail⟩ := List.forall_mem_cons.1 each
    have rest := ih y (x :: read) again tail
    rw [List.map_cons] at rest
    rw [List.map_cons, List.map_cons, List.intercalate_cons_cons, List.append_assoc,
      List.foldlM_append, head a read start]
    by_cases fit : fits x = true
    · simp [fit, comma, rest]
    · simp [fit]

/-- The same up to the end of the container, which then is delivered itself. -/
theorem foldlM_container (ready : Awaits → Prop) (inside : List α → Frame) (whole : List α → Json)
    (first : Awaits) (closing : Token) (again : ready next)
    (comma : ∀ read, feed b ⟨.commaOrClose, inside read :: frames⟩ .comma =
      some ⟨next, inside read :: frames⟩)
    (start : ready first)
    (empty : feed b ⟨first, inside [] :: frames⟩ closing = deliver (whole []) frames)
    (closes : ∀ read, feed b ⟨.commaOrClose, inside read :: frames⟩ closing =
      deliver (whole read.reverse) frames)
    (xs : List α) (each : ∀ y ∈ xs, Adds b frames ready inside piece fits y) :
    (List.intercalate [.comma] (xs.map piece) ++ [closing]).foldlM (feed b)
        ⟨first, inside [] :: frames⟩ =
      if xs.all fits then deliver (whole xs) frames else none := by
  cases xs with
  | nil => simp [List.intercalate, empty]
  | cons x xs =>
    rw [List.foldlM_append, foldlM_pieces again comma x xs [] start each]
    by_cases fit : (x :: xs).all fits = true
    · simp only [fit, if_true]
      simp [closes]
    · simp only [fit]
      rfl

end Containers

section Values

variable {α : Type} {tokens : α → List Token} {fits : α → Nat → Bool} {value : α → Json}

theorem reads_array {items : List α} (each : ∀ x ∈ items, Reads b (tokens x) (fits x) (value x)) :
    Reads b (.openArray :: List.intercalate [.comma] (items.map tokens) ++ [.closeArray])
      (fun depth => within b.depth depth && items.all (fits · (depth + 1)))
      (.array (items.map value)) := by
  intro a frames ready
  have adds : ∀ x ∈ items, Adds b frames Awaits.Ready (fun read => .array (read.map value)) tokens
      (fits · (frames.length + 1)) x :=
    fun x member a read ready => each x member a (.array (read.map value) :: frames) ready
  have closes : ∀ read : List α, feed b ⟨.commaOrClose, .array (read.map value) :: frames⟩
      .closeArray = deliver (.array (read.reverse.map value)) frames := by
    intro read
    rw [List.map_reverse]
    rfl
  have inner := foldlM_container Awaits.Ready (fun read => .array (read.map value))
    (fun read => .array (read.map value)) .valueOrClose .closeArray (.inl rfl)
    (fun _ => rfl) (.inr rfl) rfl closes items adds
  rw [List.cons_append, foldlM_feed_cons, feed_first ready (by simp), accept]
  by_cases deep : within b.depth frames.length = true
  · simp only [enter, deep, Bool.not_true, Bool.true_and]
    exact inner
  · simp [enter, deep]

theorem feed_name {name : String} {members : List (String × Json)} (named : a.Named) :
    feed b ⟨a, .object members :: frames⟩ (.text name) =
      if within b.depth (frames.length + 1) then some ⟨.colon, .member members name :: frames⟩
      else none := by
  rcases named with rfl | rfl
  · cases h : within b.depth (frames.length + 1) <;> simp [feed, enterName, h]
  · cases h : within b.depth (frames.length + 1) <;> simp [feed, enterName, h]

theorem adds_member {x : String × α} (h : Reads b (tokens x.2) (fits x.2) (value x.2))
    (bounded : ∀ depth, fits x.2 depth = true → within b.depth depth = true) :
    Adds b frames Awaits.Named
      (fun read => .object (read.map fun m => (m.1, value m.2)))
      (fun m => .text m.1 :: .colon :: tokens m.2) (fits ·.2 (frames.length + 1)) x := by
  intro a read named
  rw [foldlM_feed_cons, feed_name named]
  by_cases deep : within b.depth (frames.length + 1) = true
  · have inner := h .value (.member (read.map fun m => (m.1, value m.2)) x.1 :: frames)
      (.inl rfl)
    have colon : ∀ members, feed b ⟨.colon, .member members x.1 :: frames⟩ .colon =
      some ⟨.value, .member members x.1 :: frames⟩ := fun _ => rfl
    simp [deep, colon, inner, accept, deliver]
  · -- the name is refused where the value would be
    have large : ¬fits x.2 (frames.length + 1) = true := mt (bounded _) deep
    simp [deep, large]

theorem reads_object {members : List (String × α)}
    (each : ∀ m ∈ members, Reads b (tokens m.2) (fits m.2) (value m.2))
    (bounded : ∀ m ∈ members, ∀ depth, fits m.2 depth = true → within b.depth depth = true) :
    Reads b
      (.openObject :: List.intercalate [.comma]
        (members.map fun m => .text m.1 :: .colon :: tokens m.2) ++ [.closeObject])
      (fun depth => within b.depth depth && members.all (fits ·.2 (depth + 1)))
      (.object (members.map fun m => (m.1, value m.2))) := by
  intro a frames ready
  have adds : ∀ m ∈ members, Adds b frames Awaits.Named
      (fun read => .object (read.map fun m => (m.1, value m.2)))
      (fun m => .text m.1 :: .colon :: tokens m.2) (fits ·.2 (frames.length + 1)) m :=
    fun m member => adds_member (each m member) (bounded m member)
  have closes : ∀ read : List (String × α),
      feed b ⟨.commaOrClose, .object (read.map fun m => (m.1, value m.2)) :: frames⟩
        .closeObject =
      deliver (.object (read.reverse.map fun m => (m.1, value m.2))) frames := by
    intro read
    rw [List.map_reverse]
    rfl
  have inner := foldlM_container Awaits.Named
    (fun read => .object (read.map fun m => (m.1, value m.2)))
    (fun read => .object (read.map fun m => (m.1, value m.2)))
    .nameOrClose .closeObject (.inl rfl) (fun _ => rfl) (.inr rfl) rfl closes members adds
  rw [List.cons_append, foldlM_feed_cons, feed_first ready (by simp), accept]
  by_cases deep : within b.depth frames.length = true
  · simp only [enter, deep, Bool.not_true, Bool.true_and]
    exact inner
  · simp [enter, deep]

end Values

mutual

theorem reads_tokens (b : Bounds) (v : Json) : Reads b v.tokens (v.fits b) v := by
  cases v with
  | null | bool | float => exact reads_word _
  | text s => exact reads_text s
  | int n =>
    have number := @reads_number b (.ofInt n)
    rw [Numeral.toJson_ofInt, Numeral.signedWhole_ofInt] at number
    exact number
  | array items =>
    have whole := reads_array (reads_items b items)
    simp only [List.map_id', ← itemTokens_eq, ← itemsFit_eq] at whole
    exact whole
  | object members =>
    have whole := @reads_object b _ tokens (fun v depth => v.fits b depth) id members
      (reads_members b members) fun _ _ _ => within_of_fits
    simp only [id, List.map_id', ← memberTokens_eq, ← membersFit_eq] at whole
    exact whole

theorem reads_items (b : Bounds) (items : List Json) :
    ∀ v ∈ items, Reads b v.tokens (fun depth => v.fits b depth) v := by
  cases items with
  | nil => exact nofun
  | cons v items => exact List.forall_mem_cons.2 ⟨reads_tokens b v, reads_items b items⟩

theorem reads_members (b : Bounds) (members : List (String × Json)) :
    ∀ m ∈ members, Reads b m.2.tokens (fun depth => m.2.fits b depth) m.2 := by
  cases members with
  | nil => exact nofun
  | cons m members =>
    obtain ⟨name, v⟩ := m
    exact List.forall_mem_cons.2 ⟨reads_tokens b v, reads_members b members⟩

end

end Reader

/-- What is read in every place is read as a whole document. -/
theorem Reader.Reads.ofTokens? {b : Bounds} {ts : List Token} {fits : Nat → Bool} {v : Json}
    (h : Reads b ts fits v) : ofTokens? b ts = if fits 0 then some v else none := by
  rw [Json.ofTokens?, start, h .value [] (.inl rfl), accept]
  by_cases fit : fits 0 = true
  · simp [fit, deliver, result?]
  · simp [fit]

theorem ofTokens?_tokens (b : Bounds) (v : Json) :
    ofTokens? b v.tokens = if v.fits b 0 then some v else none :=
  (Reader.reads_tokens b v).ofTokens?

/-- A written document without floats is read as the value it was written from, unless it is too
large for the bounds. -/
theorem ofString?_toText (b : Bounds) (l : Layout) {v : Json} (h : v.isExact = true) :
    ofString? b (v.toText l) = if v.fits b 0 then some v else none := by
  have tokens := Token.ofChars?_write l h
  rw [ofString?, toText, String.toList_ofList, ofChars?, tokens]
  exact ofTokens?_tokens b v

end LoreTree.Json
