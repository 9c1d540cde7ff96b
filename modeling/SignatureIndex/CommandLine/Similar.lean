/-!
# Similar names

How much two texts have in common is the total length of the blocks they share, found greedily: the
longest block first, and then what lies to its left and to its right.  Two texts are similar when
these blocks make up at least three fifths of both together.
-/

namespace SignatureIndex.CommandLine

def commonStart : List Char → List Char → Nat
  | c :: cs, d :: ds => if c = d then commonStart cs ds + 1 else 0
  | _, _ => 0

/-- A block that two texts share: where it starts in each, and its length. -/
structure Block where
  first : Nat
  second : Nat
  length : Nat

/-- The longest block that two texts share, the one that starts earliest if there are several. -/
def longestBlock (a b : List Char) : Block :=
  let starts := (List.range a.length).flatMap fun i => (List.range b.length).map fun j => (i, j)
  starts.foldl
    (fun best (i, j) =>
      let length := commonStart (a.drop i) (b.drop j)
      if best.length < length then ⟨i, j, length⟩ else best)
    ⟨0, 0, 0⟩

/-- The total length of the blocks that two texts share, taking at most so many steps from a block
to those beside it. -/
def sharedLength : (steps : Nat) → List Char → List Char → Nat
  | 0, _, _ => 0
  | steps + 1, a, b =>
    let block := longestBlock a b
    if block.length = 0 then 0
    else
      sharedLength steps (a.take block.first) (b.take block.second) + block.length +
        sharedLength steps (a.drop (block.first + block.length))
          (b.drop (block.second + block.length))

/-- A name with what it shares with another, and the length of both together. -/
structure Likeness where
  name : String
  shared : Nat
  total : Nat

def Likeness.isClose (x : Likeness) : Bool := 3 * x.total ≤ 10 * x.shared

/-- Whether one name is at least as like as another; of names that are equally like the one that
comes last in order goes first. -/
def Likeness.atLeast (x y : Likeness) : Bool :=
  y.shared * x.total < x.shared * y.total ||
    (y.shared * x.total == x.shared * y.total && decide (y.name ≤ x.name))

/-- Whether texts of two lengths can be close at all: they share no more than the shorter of
them. -/
def canBeClose (length other : Nat) : Bool := 3 * (length + other) ≤ 10 * min length other

/-- The names most like a given one, at most three of them, in order. -/
def similarNames (name : String) (names : List String) : List String :=
  let candidates := names.filter fun other => canBeClose other.length name.length
  let likenesses := candidates.map fun other =>
    let a := other.toList
    let b := name.toList
    (⟨other, sharedLength (a.length + 1) a b, a.length + b.length⟩ : Likeness)
  let best := ((likenesses.filter Likeness.isClose).mergeSort Likeness.atLeast).take 3
  -- The likeness decides which names are shown, not in which order.
  (best.map Likeness.name).mergeSort fun a b => decide (a ≤ b)

end SignatureIndex.CommandLine
