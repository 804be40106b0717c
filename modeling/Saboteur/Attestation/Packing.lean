import Saboteur.Attestation

/-!
# Packing attestations into a block

A block has room for a limited number of attestations, so those of the same data are merged. The
steps are: drop what others cover, aggregate within each group of equal data, drop again what others
cover, put the latest slots and the largest signer sets first, and cut the list.

Only attestations with disjoint signers can be merged, so overlapping ones stay side by side.
Groups come in the order of the root of their data.
-/

namespace Saboteur.Attestation

/-! ## Groups of equal data -/

/-- Puts a root into an ascending list without repetition. -/
def insertRoot (r : Root) : List Root → List Root
  | [] => [r]
  | s :: rest =>
    if r = s then s :: rest else if Root.lt r s then r :: s :: rest else s :: insertRoot r rest

/-- The distinct roots of a list in ascending order. -/
def distinctRoots (rs : List Root) : List Root := rs.foldr insertRoot []

/-- Attestations grouped by the root of their data. A group keeps their order. -/
def groups (xs : List Attestation) : List (List Attestation) :=
  let keyed := xs.map fun x => (treeRoot x.data, x)
  (distinctRoots (keyed.map Prod.fst)).map fun r =>
    (keyed.filter fun p => p.1 = r).map Prod.snd

/-- The largest signer sets first. Equally large ones keep their order. -/
def largestFirst (xs : List Attestation) : List Attestation :=
  xs.mergeSort fun a b => b.signerCount ≤ a.signerCount

/-! ## Dropping what is covered -/

/-- Adds an attestation unless one of those kept covers its signers. -/
def keepUncovered (kept : List Attestation) (x : Attestation) : List Attestation :=
  if kept.any x.signersWithin then kept else kept ++ [x]

/-- The attestations of a group that no larger or earlier one covers. -/
def dedupGroup (group : List Attestation) : List Attestation :=
  (largestFirst group).foldl keepUncovered []

/-- Removes every attestation whose signers another attestation of the same data covers. -/
def dedup (xs : List Attestation) : List Attestation := (groups xs).flatMap dedupGroup

/-! ## Merging -/

/-- Merges an attestation into the first aggregate that can take it. -/
def mergeFirst? (x : Attestation) : List Attestation → Option (List Attestation)
  | [] => none
  | g :: rest =>
    match g.aggregate x with
    | .ok merged => some (merged :: rest)
    | .error _ => (mergeFirst? x rest).map (g :: ·)

/-- Takes an attestation into a list of aggregates: not at all if one covers it, merged if one can
take it, and else as a new aggregate. -/
def absorb (aggregates : List Attestation) (x : Attestation) : List Attestation :=
  if aggregates.any x.signersWithin then aggregates
  else match mergeFirst? x aggregates with
    | some merged => merged
    | none => aggregates ++ [x]

/-- Aggregates attestations of the same data, the largest first. -/
def aggregateGroup (group : List Attestation) : List Attestation :=
  (largestFirst group).foldl absorb []

/-! ## The packed list -/

/-- Whether an attestation may stand before another: by later slots, then by more signers. -/
def packsBefore (a b : Attestation) : Bool :=
  b.slot < a.slot || (b.slot = a.slot && b.signerCount ≤ a.signerCount)

/-- The attestations before the list is cut. -/
def packAll (xs : List Attestation) : List Attestation :=
  (dedup ((groups (dedup xs)).flatMap aggregateGroup)).mergeSort packsBefore

/-- The best list of at most `max` attestations. -/
def pack (xs : List Attestation) (max : Nat) : List Attestation := (packAll xs).take max

end Saboteur.Attestation
