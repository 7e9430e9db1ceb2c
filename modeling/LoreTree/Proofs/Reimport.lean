import LoreTree.Declaration
import LoreTree.Proofs.KeyComposition
/-!
Keys that are read back. A key gives the fragment that it was written for, whatever slashes stand in
it, unless it holds a line break. Composing adds no line break, so all keys of a lorebook can be read
back where no keyword and no source holds one.
-/

namespace LoreTree

namespace Fragment

/-- The last slash of a key closes it, so the slashes of the fragment stay in it. -/
theorem ofKey?_keyChars (f : Fragment) :
    ofKey? f.keyChars = if '\n' ∈ f.chars then none else some f := by
  have flag : isFlag 'i' = true := rfl
  by_cases broken : '\n' ∈ f.chars <;> simp [keyChars, ofKey?, flag, broken]

theorem readBack_key {f : Fragment} (whole : '\n' ∉ f.chars) :
    (Value.text f.key).isKey = true ∧
      Declaration.imported (.text f.key) = .ok (.fragment f) := by
  have read : ofKey? f.key.toList = some f := by
    rw [key, String.toList_ofList, ofKey?_keyChars, if_neg whole]
  rw [Value.isKey, Declaration.imported, read]
  exact ⟨rfl, rfl⟩

theorem refused_key {f : Fragment} (broken : '\n' ∈ f.chars) :
    (Value.text f.key).isKey = false ∧
      Declaration.imported (.text f.key) = .error (.notAKey (.text f.key)) := by
  have refused : ofKey? f.key.toList = none := by
    rw [key, String.toList_ofList, ofKey?_keyChars, if_pos broken]
  rw [Value.isKey, Declaration.imported, refused]
  exact ⟨rfl, rfl⟩

theorem imported_key_iff {f : Fragment} :
    Declaration.imported (.text f.key) = .ok (.fragment f) ↔ '\n' ∉ f.chars := by
  refine ⟨fun read broken => ?_, fun whole => (readBack_key whole).2⟩
  rw [(refused_key broken).2] at read
  cases read

theorem mem_escape {cs : List Char} {c : Char} (other : c ≠ '\\') : c ∈ escape cs ↔ c ∈ cs := by
  have single (d : Char) : c ∈ (if isSpecial d then ['\\', d] else [d]) ↔ c = d := by
    split <;> simp [other]
  rw [escape, List.mem_flatMap]
  simp only [single, exists_eq_right']

theorem lineBreak_mem_startsWith (word : List Char) : '\n' ∈ (startsWith word).chars ↔ '\n' ∈ word := by
  have other : '\n' ≠ '\\' := by decide
  simp [startsWith, boundary, mem_escape other]

theorem lineBreak_mem_exact (word : List Char) : '\n' ∈ (exact word).chars ↔ '\n' ∈ word := by
  have other : '\n' ≠ '\\' := by decide
  simp [exact, boundary, mem_escape other]

end Fragment

theorem Gap.lineBreak_notMem (g : Gap) : '\n' ∉ g.chars := by
  have count (n : Nat) : '\n' ∉ Decimal.digits n := by
    intro member
    have digit := Decimal.digits_isDigit n _ member
    cases digit
  cases g with
  | document | line => decide
  | words low high sameLine =>
    cases sameLine <;> simp [chars, nextWord, separator, notWord, notWordNorLineBreak, times,
      Fragment.group, Fragment.together, count]

namespace Fragment

theorem lineBreak_mem_relate (presence : Presence) (gap : Gap) (left right : Fragment) :
    '\n' ∈ (relate presence gap left right).chars ↔ '\n' ∈ left.chars ∨ '\n' ∈ right.chars := by
  have copies : '\n' ∈ (relate presence gap left right).chars ↔
      '\n' ∈ left.chars ∨ '\n' ∈ right.chars ∨ '\n' ∈ right.chars ∨ '\n' ∈ left.chars := by
    cases presence <;> simp [relate, group, together, ahead, behind, notAhead, notBehind,
      gap.lineBreak_notMem]
  rw [copies]
  tauto

theorem lineBreak_mem_alternation (fs : List Fragment) :
    '\n' ∈ (alternation fs).chars ↔ ∃ f ∈ fs, '\n' ∈ f.chars := by
  have inside : '\n' ∈ List.intercalate ['|'] (fs.map chars) ↔ ∃ f ∈ fs, '\n' ∈ f.chars := by
    induction fs with
    | nil => simp
    | cons f fs ih =>
      cases fs with
      | nil => simp
      | cons second others =>
        rw [List.map_cons, List.map_cons, List.intercalate_cons_cons, ← List.map_cons,
          List.exists_mem_cons_iff, ← ih]
        simp
  simpa [alternation, group, together] using inside

end Fragment

namespace Phrase

def HoldsLineBreak : Phrase → Prop
  | .word text => '\n' ∈ text.toList
  | .native source => '\n' ∈ source.toList
  | .fragment f => '\n' ∈ f.chars
  | .expression left _ right => left.HoldsLineBreak ∨ right.HoldsLineBreak
  | _ => False

instance HoldsLineBreak.decide : (p : Phrase) → Decidable p.HoldsLineBreak
  | .word text => inferInstanceAs (Decidable ('\n' ∈ text.toList))
  | .native source => inferInstanceAs (Decidable ('\n' ∈ source.toList))
  | .fragment f => inferInstanceAs (Decidable ('\n' ∈ f.chars))
  | .expression left _ right =>
    have := HoldsLineBreak.decide left
    have := HoldsLineBreak.decide right
    inferInstanceAs (Decidable (_ ∨ _))
  | .unjoined .. => .isFalse id
  | .foreign => .isFalse id

variable {p : Phrase} {f : Fragment}

theorem lineBreak_mem_compile (h : p.compile = .ok f) : '\n' ∈ f.chars ↔ p.HoldsLineBreak := by
  induction p generalizing f with
  | word text =>
    cases h
    exact Fragment.lineBreak_mem_startsWith text.toList
  | native source =>
    cases h
    exact Iff.rfl
  | fragment g =>
    cases h
    exact Iff.rfl
  | expression l op r ihl ihr =>
    obtain ⟨left, right, left_ok, right_ok, joined⟩ := compile_expression_eq_ok.1 h
    rw [HoldsLineBreak, ← ihl left_ok, ← ihr right_ok]
    obtain ⟨-, rfl⟩ | ⟨presence, gap, -, rfl⟩ := Operator.combine?_eq_some.1 joined
    · simp [Fragment.lineBreak_mem_alternation]
    · exact Fragment.lineBreak_mem_relate presence gap left right
  | unjoined => cases h
  | foreign => cases h

theorem lineBreak_mem_anyOf {ps : List Phrase} (h : anyOf ps = .ok f) :
    '\n' ∈ f.chars ↔ ∃ p ∈ ps, p.HoldsLineBreak := by
  obtain ⟨fs, compiled, rfl⟩ := map_eq_ok.1 h
  have each := mapM_eq_ok.1 compiled
  rw [Fragment.lineBreak_mem_alternation]
  clear h compiled
  induction each with
  | nil => simp
  | cons first _ ih =>
    rw [List.exists_mem_cons_iff, List.exists_mem_cons_iff, lineBreak_mem_compile first]
    exact or_congr_right ih

end Phrase

namespace Keys

def Unbroken (keys : List Phrase) : Prop :=
  ∀ k ∈ keys, ¬k.HoldsLineBreak

instance (keys : List Phrase) : Decidable (Unbroken keys) :=
  inferInstanceAs (Decidable (∀ k ∈ keys, ¬k.HoldsLineBreak))

section Unbroken

variable {op : Operator} {base own keys : List Phrase} {key : Phrase}

theorem Stands.unbroken (h : Stands keys key) (unbroken : Unbroken keys) : ¬key.HoldsLineBreak := by
  cases h with
  | only => exact unbroken _ List.mem_cons_self
  | several _ compiled =>
    intro broken
    obtain ⟨k, member, held⟩ := (Phrase.lineBreak_mem_anyOf compiled).1 broken
    exact unbroken k member held

theorem Composed.unbroken (h : Composed op base own keys) (before : Unbroken base)
    (added : Unbroken own) : Unbroken keys := by
  cases h with
  | inherited => exact before
  | own => exact added
  | @joined _ _ _ all _ _ stands each =>
    intro key member
    obtain ⟨i, hi, rfl⟩ := List.mem_iff_getElem.1 member
    have hj : i < own.length := each.length_eq ▸ hi
    obtain ⟨f, compiled, made⟩ := each.get hj hi
    change ¬(keys.get ⟨i, hi⟩).HoldsLineBreak
    rw [made]
    refine mt (Phrase.lineBreak_mem_compile compiled).1 ?_
    rintro (held | held)
    · exact stands.unbroken before held
    · exact added _ (List.getElem_mem hj) held

def Edit.IsUnbroken : Edit → Prop
  | .append key | .prepend key => ∀ k, key = .ok k → ¬k.HoldsLineBreak
  | _ => True

theorem exactWord_unbroken (unbroken : ¬key.HoldsLineBreak) : ¬(exactWord key).HoldsLineBreak := by
  cases key with
  | word text => exact mt (Fragment.lineBreak_mem_exact text.toList).1 unbroken
  | _ => exact unbroken

theorem Edit.run_unbroken {edit : Edit} (kept : edit.IsUnbroken) (before : Unbroken base)
    (h : (edit.run base).result = .ok keys) : Unbroken keys := by
  cases edit with
  | observe =>
    cases h
    exact before
  | drop n =>
    cases h
    exact fun k member => before k (List.mem_of_mem_drop member)
  | take n =>
    cases h
    exact fun k member => before k (List.mem_of_mem_take member)
  | reverse =>
    cases h
    exact fun k member => before k (List.mem_reverse.1 member)
  | append added =>
    simp only [run, Run.result_bind, Run.result_lift] at h
    obtain ⟨k, made, h⟩ := bind_eq_ok.1 h
    cases h
    exact List.forall_mem_append.2 ⟨before, List.forall_mem_singleton.2 (kept k made)⟩
  | prepend added =>
    simp only [run, Run.result_bind, Run.result_lift] at h
    obtain ⟨k, made, h⟩ := bind_eq_ok.1 h
    cases h
    exact List.forall_mem_cons.2 ⟨kept k made, before⟩
  | alternate =>
    simp only [run, Run.result_bind, Run.result_lift] at h
    obtain ⟨f, compiled, h⟩ := bind_eq_ok.1 h
    cases h
    refine List.forall_mem_singleton.2 fun broken => ?_
    obtain ⟨k, member, held⟩ := (Phrase.lineBreak_mem_anyOf compiled).1 broken
    exact before k member held
  | exactWords =>
    cases h
    exact List.forall_mem_map.2 fun k member => exactWord_unbroken (before k member)
  | clear =>
    cases h
    exact fun _ member => absurd member List.not_mem_nil

/-- Edits one after the other bring in no line break if none of them does. -/
theorem Edit.runAll_unbroken {edits : List Edit} (kept : ∀ e ∈ edits, e.IsUnbroken)
    (before : Unbroken base) (h : (runAll edits base).result = .ok keys) : Unbroken keys := by
  change (edits.foldlM run base).result = .ok keys at h
  induction edits generalizing base with
  | nil =>
    cases h
    exact before
  | cons e edits ih =>
    obtain ⟨first, others⟩ := List.forall_mem_cons.1 kept
    rw [List.foldlM_cons, Run.result_bind] at h
    obtain ⟨next, ran, h⟩ := bind_eq_ok.1 h
    exact ih others (run_unbroken first before ran) h

end Unbroken

end Keys

/-- An entry that brings no line break into its keys: its own hold none, and those that it starts from
hold none if the inherited ones do not. -/
structure Entry.IsUnbroken (e : Entry) : Prop where
  own : Keys.Unbroken e.keys
  base : ∀ {inherited base}, Keys.Unbroken inherited → e.baseKeys inherited = .ok base →
    Keys.Unbroken base

namespace Entry.IsUnbroken

variable {e : Entry} {keys : List Phrase} {edits : List Keys.Edit}

theorem of_none (plain : e.base = none) (own : Keys.Unbroken e.keys) : e.IsUnbroken := by
  refine ⟨own, fun before based => ?_⟩
  rw [baseKeys, plain] at based
  cases based
  exact before

theorem of_replace (replaced : e.base = some (.replace keys)) (unbroken : Keys.Unbroken keys)
    (own : Keys.Unbroken e.keys) : e.IsUnbroken := by
  refine ⟨own, fun _ based => ?_⟩
  rw [baseKeys, replaced] at based
  cases based
  exact unbroken

theorem of_edits (edited : e.base = some (.derive (Keys.Edit.runAll edits)))
    (kept : ∀ d ∈ edits, d.IsUnbroken) (own : Keys.Unbroken e.keys) : e.IsUnbroken := by
  refine ⟨own, fun before based => ?_⟩
  rw [baseKeys, edited] at based
  exact Keys.Edit.runAll_unbroken kept before based

end Entry.IsUnbroken

section Walk

variable {c : Config} {path : List Entry} {above : Inherited} {e : Entry} {site : Site}

theorem Reaches.visited_unbroken (reached : Reaches c.inherited path above)
    (visited : Visited e above site) (kept : e.IsUnbroken) (before : Keys.Unbroken above.keys) :
    Keys.Unbroken site.keys := by
  obtain ⟨base, based, composed⟩ := reached.composed visited
  exact composed.unbroken (kept.base before based) kept.own

theorem Reaches.unbroken (reached : Reaches c.inherited path above)
    (kept : ∀ e ∈ path, e.IsUnbroken) : Keys.Unbroken above.keys := by
  induction reached with
  | root => exact fun _ member => absurd member List.not_mem_nil
  | child reached visited handed ih =>
    obtain ⟨next, -, rfl⟩ := Site.handDown_eq_ok handed
    obtain ⟨before, last⟩ := List.forall_mem_append.1 kept
    exact reached.visited_unbroken (Entry.visited visited) (last _ List.mem_cons_self) (ih before)

end Walk

/-- The fragment that a phrase stands for can be read back from its key, and so can every key of every
record, unless the phrase holds a line break. No key of an entry does if no entry on the way brings
one in. -/
theorem keys_readBack (p : Phrase) (c : Config) :
    (∀ f, p.compile = .ok f →
      (¬p.HoldsLineBreak → (Value.text f.key).isKey = true ∧
        Declaration.imported (.text f.key) = .ok (.fragment f)) ∧
      (p.HoldsLineBreak → (Value.text f.key).isKey = false ∧
        Declaration.imported (.text f.key) = .error (.notAKey (.text f.key)))) ∧
    ∀ book, c.build.result = .ok book → c.EachRecord book fun l r =>
      ∃ keys, c.effectiveKeys l.entries = .ok keys ∧
        List.Forall₂ (fun k s => ∃ f, k.compile = .ok f ∧ s = f.key ∧
          (Declaration.imported (.text s) = .ok (.fragment f) ↔ ¬k.HoldsLineBreak)) keys r.keys ∧
        ((∀ e ∈ l.entries, e.IsUnbroken) → ∀ k ∈ keys, ¬k.HoldsLineBreak) := by
  constructor
  · intro f compiled
    rw [← Phrase.lineBreak_mem_compile compiled]
    exact ⟨Fragment.readBack_key, Fragment.refused_key⟩
  · intro book built
    refine Config.eachRecord built ?_
    intro l _ above site reached visited r shows
    refine ⟨site.keys, reached.effectiveKeys visited, ?_, ?_⟩
    · rw [shows.keys, List.forall₂_map_right_iff]
      refine (mapM_eq_ok.1 visited.compiled).imp ?_
      intro k f compiled
      refine ⟨f, compiled, rfl, ?_⟩
      rw [← Phrase.lineBreak_mem_compile compiled]
      exact Fragment.imported_key_iff
    · intro kept
      obtain ⟨before, last⟩ := List.forall_mem_append.1 kept
      exact reached.visited_unbroken visited (last _ List.mem_cons_self) (reached.unbroken before)

/-- Slashes in a keyword and in a source, a key that is added to the inherited ones, and keys that
start anew. -/
def shelvedBook : Config where
  entries :=
    [.node { name := "Story", keys := [.word "a/b"], texts := .one "s" }
      [.node
        { name := "Kid", keys := [.native "/x/i"], texts := .one "k"
          base := some (.derive (Keys.Edit.runAll [.append (.ok (.word "n")), .exactWords])) } [],
       .node { name := "Cat", texts := .one "c", base := some (.replace [.word "d/i"]) } []]]

theorem keys_readBack_shelved :
    ∃ book, shelvedBook.build.result = .ok book ∧
      book.records.map Record.keys = [["/\\ba/b/i"],
        ["/(?:\\ba/b\\b|\\bn\\b)(?:(?=[\\s\\S]*?/x/i)|(?<=/x/i[\\s\\S]*?(?:\\ba/b\\b|\\bn\\b)))/i"],
        ["/\\bd/i/i"]] ∧
      (∀ l ∈ shelvedBook.lineages, l.entry.IsUnbroken) ∧
      (∀ r ∈ book.records, ∀ s ∈ r.keys, ∃ f : Fragment, s = f.key ∧
        Declaration.imported (.text s) = .ok (.fragment f)) ∧
      Declaration.imported (.text "//x/i/i") = .ok (.fragment ⟨"/x/i".toList⟩) ∧
      (Value.text "/\\bu\nv/i").isKey = false := by
  have kept : ∀ l ∈ shelvedBook.lineages, l.entry.IsUnbroken := by
    refine List.forall_mem_cons.2 ⟨?_, List.forall_mem_cons.2 ⟨?_, List.forall_mem_singleton.2 ?_⟩⟩
    · exact .of_none rfl (by decide)
    · refine .of_edits rfl (List.forall_mem_cons.2 ⟨?_, ?_⟩) (by decide)
      · rintro k ⟨⟩
        decide
      · exact List.forall_mem_singleton.2 trivial
    · exact .of_replace rfl (by decide) (by decide)
  refine ⟨_, rfl, by decide, kept, fun r member s shown => ?_,
    (((keys_readBack (.native "/x/i") shelvedBook).1 _ rfl).1 (by decide)).2,
    (((keys_readBack (.word "u\nv") shelvedBook).1 _ rfl).2 (by decide)).1⟩
  obtain ⟨l, listed, keys, -, each, whole⟩ :=
    ((keys_readBack .foreign shelvedBook).2 _ rfl).exists_lineage member
  have on_the_way : ∀ e ∈ l.entries, e.IsUnbroken := by
    intro e between
    obtain ⟨m, hm, rfl⟩ := Config.mem_lineages_entries listed between
    exact kept m hm
  obtain ⟨i, hi, rfl⟩ := List.mem_iff_getElem.1 shown
  have hj : i < keys.length := each.length_eq ▸ hi
  obtain ⟨f, -, spelled, read⟩ := each.get hj hi
  exact ⟨f, spelled, read.2 (whole on_the_way _ (List.getElem_mem hj))⟩

/-- A keyword with a line break is compiled, but its key is no key. -/
theorem not_keys_readBack :
    ¬ ∀ (p : Phrase) (f : Fragment), p.compile = .ok f → (Value.text f.key).isKey = true ∧
      Declaration.imported (.text f.key) = .ok (.fragment f) := by
  intro each
  obtain ⟨recognised, -⟩ := each (.word "New\nYork") _ rfl
  rw [(Fragment.refused_key (by decide)).1] at recognised
  cases recognised

end LoreTree
