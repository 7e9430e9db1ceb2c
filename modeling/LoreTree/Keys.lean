import LoreTree.Run
/-!
How the keys of an entry come about: the keys that it inherits are replaced or edited if the entry
asks for it, and then joined with its own keys, one result for each of them.
-/

namespace LoreTree

namespace Keys

/-- The single phrase that stands for the keys of a parent. -/
def joined : List Phrase → Except Failure Phrase
  | [key] => .ok key
  | keys => Phrase.fragment <$> Phrase.anyOf keys

/-- Each own key is joined with all inherited ones; if either list is empty the other is kept as it
is. -/
def ofChild (inherited : List Phrase) (op : Operator) (own : List Phrase) :
    Except Failure (List Phrase) :=
  if inherited.isEmpty then .ok own
  else if own.isEmpty then .ok inherited
  else do
    let base ← joined inherited
    own.mapM fun key => Phrase.fragment <$> (Phrase.expression base op key).compile

/-- One edit of a list of inherited keys. A new key may be one whose making fails. -/
inductive Edit
  | observe
  | drop (n : Int)
  | take (n : Int)
  | reverse
  | append (key : Except Failure Phrase)
  | prepend (key : Except Failure Phrase)
  | alternate
  | exactWords
  | clear

/-- How many items from the front a count means; a negative one counts from the end. -/
def frontCount (length : Nat) (n : Int) : Nat :=
  if n < 0 then (length + n).toNat else n.toNat

def exactWord : Phrase → Phrase
  | .word s => .fragment (.exact s.toList)
  | p => p

def Edit.run (keys : List Phrase) : Edit → Run (List Phrase)
  | .observe => do
    Run.tell (.observed keys)
    return keys
  | .drop n => return keys.drop (frontCount keys.length n)
  | .take n => return keys.take (frontCount keys.length n)
  | .reverse => return keys.reverse
  | .append key => do return keys ++ [← key]
  | .prepend key => do return (← key) :: keys
  | .alternate => do return [.fragment (← Phrase.anyOf keys)]
  | .exactWords => return keys.map exactWord
  | .clear => return []

/-- What a transformation makes of keys, and the lists of keys that it shows on the way. -/
structure Derived where
  shown : List (List Phrase)
  result : Except Failure (List Phrase)

def Edit.runAll (edits : List Edit) (keys : List Phrase) : Derived :=
  let run := edits.foldlM Edit.run keys
  ⟨run.observed, run.result⟩

inductive Base
  | replace (keys : List Phrase)
  | derive (transform : List Phrase → Derived)

def Base.resolve (inherited : List Phrase) : Base → Run (List Phrase)
  | .replace keys => return keys
  | .derive transform =>
    let derived := transform inherited
    ⟨derived.shown.map .observed, derived.result⟩

end Keys

end LoreTree
