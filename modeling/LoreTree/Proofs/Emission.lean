import LoreTree.Proofs.Walk
import Mathlib.Algebra.Ring.Nat
import Mathlib.Data.List.ReduceOption
/-!
The records of a lorebook in the order of its entries: an entry gives one record for each of its
texts, before the entries below it do. A reversed lorebook has the same records from last to first.
-/

namespace LoreTree

/-- The texts among the items; what is no text is left out. -/
def Texts.strings : Texts → List String
  | .absent => []
  | .one s => [s]
  | .many items => items.reduceOption
  | .foreign => []

theorem Texts.items_eq_ok {t : Texts} {items : List (Option String)} (h : t.items = .ok items) :
    t.strings = items.reduceOption := by
  cases t with
  | absent | one | many =>
    cases h
    rfl
  | foreign => cases h

namespace Lineage

def title (l : Lineage) : String :=
  String.intercalate " - " (l.entries.map Entry.name)

def label (l : Lineage) (index : Nat) : String :=
  let count := l.entry.texts.strings.length
  if 1 < count then
    l.title ++ " (" ++ Decimal.natText (index + 1) ++ " of " ++ Decimal.natText count ++ ")"
  else l.title

def labelled (l : Lineage) : List (String × String) :=
  l.entry.texts.strings.zipIdx.map fun (text, index) => (l.label index, text)

theorem length_labelled (l : Lineage) : l.labelled.length = l.entry.texts.strings.length := by
  simp [labelled]

end Lineage

def Record.labelled (r : Record) : String × String :=
  (r.displayName, r.text)

namespace Site

variable {s : Site} {count : Nat} {items : List (Option String)} {block : List Record}

theorem record_eq_ok {index : Nat} {text : Option String} {r : Record}
    (h : s.record count index text = .ok r) :
    text = some r.text ∧ r.displayName = s.recordName count index := by
  cases text with
  | none => cases h
  | some words =>
    cases h
    exact ⟨rfl, rfl⟩

/-- A block of records goes through the texts in order; no text is missing from it. -/
theorem labelled_block {first : Nat}
    (each : List.Forall₂ (fun item r => s.record count item.2 item.1 = .ok r) (items.zipIdx first)
      block) :
    items = items.reduceOption.map some ∧
      block.map Record.labelled =
        (items.reduceOption.zipIdx first).map fun (text, index) => (s.recordName count index, text) := by
  -- the count of all texts stays fixed while the index of the first one moves
  induction items generalizing first block with
  | nil =>
    cases each
    exact ⟨rfl, rfl⟩
  | cons item items ih =>
    rw [List.zipIdx_cons] at each
    cases each with
    | @cons _ r _ rest head tail =>
      obtain ⟨given, named⟩ := record_eq_ok head
      obtain ⟨complete, listed⟩ := ih tail
      change item = some r.text at given
      subst given
      rw [List.reduceOption_cons_of_some, List.map_cons, ← complete, List.map_cons, listed,
        List.zipIdx_cons, List.map_cons]
      refine ⟨rfl, congrArg (· :: _) ?_⟩
      rw [Record.labelled, named]

theorem labelled_records (h : s.records = .ok block) :
    s.texts.items = .ok (s.texts.strings.map some) ∧
      block.map Record.labelled = s.texts.strings.zipIdx.map fun (text, index) =>
        (s.recordName s.texts.strings.length index, text) := by
  obtain ⟨items, given, h⟩ := bind_eq_ok.1 h
  obtain ⟨complete, listed⟩ := labelled_block (mapM_eq_ok.1 h)
  have strings := Texts.items_eq_ok given
  have count : s.texts.strings.length = items.length := by
    rw [complete, List.length_map, strings]
  rw [given, count, strings]
  exact ⟨congrArg _ complete, listed⟩

end Site

theorem Reaches.path_append {start : Inherited} {path : List Entry} {above : Inherited}
    (reached : Reaches start path above) (root : start.path = "") (name : String) :
    above.path ++ name = String.intercalate " - " (path.map Entry.name ++ [name]) := by
  induction reached generalizing name with
  | root => simp [root]
  | @child path above e site _ _ visited handed ih =>
    obtain ⟨next, -, rfl⟩ := Site.handDown_eq_ok handed
    have named : site.name = String.intercalate " - " ((path ++ [e]).map Entry.name) := by
      rw [(Entry.visited visited).name, ih, List.map_append, List.map_singleton]
    have some_name : (path ++ [e]).map Entry.name ≠ [] := by simp
    rw [String.intercalate_append_of_ne_nil some_name (List.cons_ne_nil _ _), ← named,
      String.intercalate_singleton]

theorem Reaches.title_eq {c : Config} {path : List Entry} {above : Inherited}
    (reached : Reaches c.inherited path above) (e : Entry) :
    above.path ++ e.name = (⟨path, e⟩ : Lineage).title := by
  rw [reached.path_append rfl, Lineage.title, Lineage.entries, List.map_append]
  rfl

/-- The block that the walk writes for a lineage holds its texts under their labels. -/
theorem Writes.labelled {c : Config} {l : Lineage} {block : List Record}
    (wrote : Writes c.inherited l block) :
    l.entry.texts.items = .ok (l.entry.texts.strings.map some) ∧
      block.map Record.labelled = l.labelled := by
  obtain ⟨above, site, reached, visited, written⟩ := wrote
  have made := Entry.visited visited
  obtain ⟨complete, listed⟩ := Site.labelled_records written
  rw [made.texts] at complete listed
  refine ⟨complete, listed.trans (List.map_congr_left ?_)⟩
  rintro ⟨text, index⟩ member
  have title : site.name = l.title := made.name.trans (reached.title_eq l.entry)
  have bound : index < l.entry.texts.strings.length := by
    simpa using List.snd_lt_add_of_mem_zipIdx member
  -- a single text has the bare title, and there is a text at all
  have single : l.entry.texts.strings.length = 1 ↔ ¬1 < l.entry.texts.strings.length := by
    omega
  simp only [Site.recordName, Lineage.label, title, single, ite_not]

/-- The records, in order, are the texts of all lineages under their labels, and no entry has
anything but texts. The same tree reversed gives the same records in reverse. -/
theorem records_follow_lineages (c : Config) {book : Lorebook} (built : c.build.result = .ok book) :
    (∀ l ∈ c.lineages, l.entry.texts.items = .ok (l.entry.texts.strings.map some)) ∧
    (if c.reversed then book.records.reverse else book.records).map Record.labelled =
      c.lineages.flatMap Lineage.labelled ∧
    book.records.length = (c.lineages.map fun l => l.entry.texts.strings.length).sum ∧
    ∃ forward : Lorebook, { c with reversed := false : Config }.build.result = .ok forward ∧
      { c with reversed := true : Config }.build.result =
        .ok { forward with records := forward.records.reverse } := by
  obtain ⟨blocks, all, each⟩ := Config.writes_of_built built
  have listed : (if c.reversed then book.records.reverse else book.records).map Record.labelled =
      c.lineages.flatMap Lineage.labelled := by
    rw [all, List.map_flatten, List.flatMap_def]
    congr 1
    rw [← List.forall₂_eq_eq_eq, List.forall₂_map_left_iff, List.forall₂_map_right_iff]
    exact each.flip.imp fun _ _ wrote => (Writes.labelled wrote).2
  refine ⟨?_, listed, ?_, ?_⟩
  · intro l member
    obtain ⟨block, wrote⟩ := Config.exists_writes built member
    exact (Writes.labelled wrote).1
  · have lengths := congrArg List.length listed
    simp only [List.length_map, List.length_flatMap, Lineage.length_labelled] at lengths
    rw [← lengths]
    split
    · rw [List.length_reverse]
    · rfl
  · obtain ⟨records, walked, -⟩ := Config.build_eq_ok.1 built
    exact ⟨_, Config.build_eq_ok.2 ⟨records, walked, rfl⟩,
      Config.build_eq_ok.2 ⟨records, walked, rfl⟩⟩

/-- Entries with no text, with one, and with several, below each other and side by side. -/
def countedBook : Config where
  entries :=
    [.node { name := "Story", keys := [.word "story"] }
      [.node { name := "Kid", texts := .many [some "k", some "l"] }
        [.node { name := "Toy", texts := .one "t" } []],
       .node { name := "Cat", texts := .many [some "c"] } []],
     .node { name := "Town", texts := .many [] } []]
  reversed := true

theorem records_follow_lineages_counted :
    ∃ book, countedBook.build.result = .ok book ∧
      countedBook.lineages.flatMap Lineage.labelled =
        [("Story - Kid (1 of 2)", "k"), ("Story - Kid (2 of 2)", "l"), ("Story - Kid - Toy", "t"),
         ("Story - Cat", "c")] ∧
      book.records.map Record.labelled =
        (countedBook.lineages.flatMap Lineage.labelled).reverse ∧
      ∃ forward : Lorebook, { countedBook with reversed := false : Config }.build.result = .ok forward ∧
        { countedBook with reversed := true : Config }.build.result =
          .ok { forward with records := forward.records.reverse } := by
  obtain ⟨book, built⟩ : ∃ book, countedBook.build.result = .ok book := ⟨_, rfl⟩
  obtain ⟨-, listed, -, forward⟩ := records_follow_lineages countedBook built
  refine ⟨book, built, ?_, ?_, forward⟩
  · have one : Decimal.natText 1 = "1" := by cbv
    have two : Decimal.natText 2 = "2" := by cbv
    simp [countedBook, Config.lineages, RoseTree.lineages, RoseTree.forestLineages,
      Lineage.labelled, Lineage.label, Lineage.title, Lineage.entries, Texts.strings,
      List.reduceOption, List.zipIdx, String.intercalate_cons_cons, one, two]
  · have backwards : book.records.reverse.map Record.labelled = _ := listed
    rw [← backwards, List.map_reverse, List.reverse_reverse]

end LoreTree
