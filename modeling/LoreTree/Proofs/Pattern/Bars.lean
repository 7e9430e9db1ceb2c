import LoreTree.Proofs.Pattern.Scan
import LoreTree.Proofs.Success
import LoreTree.Keys
/-!
The bars of composed fragments. Keywords are escaped and gaps have no bars, so a composed fragment
has those of its sides; an alternation keeps its own in a group, but a relation puts its sides where
they stand.
-/

namespace LoreTree

open Pattern

section Parts

variable {emptyClass : Bool}

namespace Fragment

def bars? (emptyClass : Bool) (f : Fragment) : Option Bars :=
  Pattern.bars? emptyClass f.chars

end Fragment

theorem Decimal.digits_plain (n : Nat) : ∀ c ∈ digits n, c ∉ marks := by
  intro c hc mark
  have none_digit : marks.all (!·.isDigit) = true := rfl
  have other := List.all_eq_true.1 none_digit c mark
  rw [digits_isDigit n c hc] at other
  cases other

theorem Gap.bars?_chars (g : Gap) : Pattern.bars? emptyClass g.chars = some {} := by
  cases g with
  | document => rfl
  | line => rfl
  | words low high sameLine =>
    have word : Pattern.bars? emptyClass (nextWord sameLine) = some {} := by
      have inside : Pattern.bars? emptyClass (separator sameLine ++ ['+', '\\', 'w', '+']) = some {} := by
        cases sameLine <;> rfl
      exact bars?_group Fragment.together rfl inside
    have count : Pattern.bars? emptyClass (times low high) = some {} := by
      apply bars?_plain
      intro c hc
      simp only [times, List.mem_cons, List.mem_append, List.not_mem_nil, or_false] at hc
      rcases hc with ((rfl | hc) | rfl | hc) | rfl | rfl
      · decide
      · exact Decimal.digits_plain low c hc
      · decide
      · exact Decimal.digits_plain high c hc
      · decide
      · decide
    have last : Pattern.bars? emptyClass (notWord ++ ['+']) = some {} := rfl
    have all := bars?_append (bars?_append word count) last
    rwa [← List.append_assoc] at all

end Parts

/-- The bars of a relation: its right side stands inside of groups that look around, and so does a
second copy of its left side. -/
def Pattern.Bars.related (left right : Bars) : Bars :=
  ⟨left.exposed, left.leaks || right.leaks⟩

def Pattern.Bars.alternated (sides : List Bars) : Bars :=
  ⟨false, sides.any Bars.torn⟩

theorem Pattern.Bars.leaks_related (a b : Bars) : (a.related b).leaks = (a.leaks || b.leaks) := by
  simp [related, leaks, ← Bool.or_assoc]

/-- A look ahead for the right side and a look behind for both, after the left side. -/
theorem Pattern.Bars.join_looks (a b : Bars) :
    a.join (Bars.join ⟨false, b.leaks⟩ ⟨false, (b.join a).leaks⟩) = a.related b := by
  obtain ⟨e, t⟩ := a
  obtain ⟨e', t'⟩ := b
  simp only [join, related, leaks, Bool.or_false, Bars.mk.injEq, true_and]
  cases e <;> cases t <;> cases e' <;> cases t' <;> rfl

namespace Fragment

variable {emptyClass : Bool} {left right : Fragment} {a b : Bars}

/-- A group that looks around is torn by every bar that its body leaks. -/
theorem bars?_looking (opening : List Char) {body : List Char}
    (opened : Scan.run emptyClass {} opening = some ⟨.text, [true], {}⟩)
    (inside : Pattern.bars? emptyClass body = some b) :
    Pattern.bars? emptyClass (group opening body) = some ⟨false, b.leaks⟩ := by
  have grouped := bars?_group opening opened inside
  rwa [Bars.within, Bool.true_and, Bool.or_comm] at grouped

theorem bars?_relate (presence : Presence) (gap : Gap) (hl : left.bars? emptyClass = some a)
    (hr : right.bars? emptyClass = some b) :
    (relate presence gap left right).bars? emptyClass = some (a.related b) := by
  have after := bars?_append gap.bars?_chars hr
  have before := bars?_append (bars?_append hr gap.bars?_chars) hl
  rw [Bars.none_join] at after
  rw [Bars.join_none] at before
  rw [← Bars.join_looks]
  cases presence with
  | present =>
    have bar : Pattern.bars? emptyClass ['|'] = some ⟨true, false⟩ := rfl
    have ahead_or_behind := bars?_append (bars?_looking ahead rfl after)
      (bars?_append bar (bars?_looking behind rfl before))
    have grouped := bars?_group together rfl ahead_or_behind
    have hidden (x y : Bool) :
        (Bars.join ⟨false, x⟩ (Bars.join ⟨true, false⟩ ⟨false, y⟩)).within [false] =
          Bars.join ⟨false, x⟩ ⟨false, y⟩ := by
      simp [Bars.within, Bars.join]
    rw [hidden] at grouped
    exact bars?_append hl grouped
  | absent =>
    have neither := bars?_append (bars?_looking notAhead rfl after)
      (bars?_looking notBehind rfl before)
    have all := bars?_append hl neither
    rwa [← List.append_assoc] at all

theorem bars?_intercalate {fs : List Fragment} {bs : List Bars}
    (each : List.Forall₂ (fun f b => f.bars? emptyClass = some b) fs bs) :
    ∃ exposed, Pattern.bars? emptyClass (List.intercalate ['|'] (fs.map chars)) =
      some ⟨exposed, bs.any Bars.torn⟩ := by
  induction each with
  | nil => exact ⟨false, rfl⟩
  | @cons f b fs bs head tail ih =>
    cases tail with
    | nil =>
      refine ⟨b.exposed, ?_⟩
      rw [List.map_singleton, List.intercalate_singleton, List.any_cons, List.any_nil,
        Bool.or_false]
      exact head
    | cons second others =>
      obtain ⟨exposed, rest⟩ := ih
      have bar : Pattern.bars? emptyClass ['|'] = some ⟨true, false⟩ := rfl
      refine ⟨b.exposed || (true || exposed), ?_⟩
      rw [List.map_cons, List.map_cons, List.intercalate_cons_cons, List.append_assoc]
      exact bars?_append head (bars?_append bar rest)

theorem bars?_alternation {fs : List Fragment} {bs : List Bars}
    (each : List.Forall₂ (fun f b => f.bars? emptyClass = some b) fs bs) :
    (alternation fs).bars? emptyClass = some (Bars.alternated bs) := by
  obtain ⟨exposed, inside⟩ := bars?_intercalate each
  have grouped := bars?_group together rfl inside
  rwa [Bars.within, Bool.false_and, Bool.or_false] at grouped

end Fragment

end LoreTree
