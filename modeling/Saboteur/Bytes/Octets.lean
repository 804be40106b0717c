/-!
# Byte strings of a fixed length

Roots, keys and signatures are byte strings whose length is part of their type. The bytes are a
plain list, so that everything said about lists applies.
-/

namespace Saboteur

/-- A list of exactly `n` bytes. -/
structure Octets (n : Nat) where
  toList : List UInt8
  length_toList : toList.length = n
  deriving DecidableEq

namespace Octets

@[ext] theorem ext_toList {n : Nat} {a b : Octets n} (h : a.toList = b.toList) : a = b := by
  cases a
  cases b
  simpa using h

/-- The byte string with these bytes, if there are `n` of them. -/
def ofList? (n : Nat) (bytes : List UInt8) : Option (Octets n) :=
  if h : bytes.length = n then some ⟨bytes, h⟩ else none

theorem ofList?_toList {n : Nat} (a : Octets n) : ofList? n a.toList = some a := by
  simp [ofList?, a.length_toList]

/-- The byte string whose bytes are all the same. -/
def repeated (n : Nat) (b : UInt8) : Octets n := ⟨List.replicate n b, by simp⟩

/-- The byte string of zeros. -/
def zero (n : Nat) : Octets n := repeated n 0

instance {n : Nat} : Inhabited (Octets n) := ⟨zero n⟩

/-- The first `n` bytes of a list, with zeros where the list is too short. -/
def padded (n : Nat) (bytes : List UInt8) : Octets n :=
  ⟨(bytes ++ List.replicate n 0).take n, by simp⟩

end Octets

/-- A list in pieces of `n` elements, the last of which may be shorter. -/
def piecesOf {α : Type} (n : Nat) (l : List α) : List (List α) :=
  if n = 0 then [l]
  else match l with
    | [] => []
    | a :: rest => (a :: rest).take n :: piecesOf n (rest.drop (n - 1))
termination_by l.length
decreasing_by simp only [List.length_drop, List.length_cons]; omega

/-- Whether one byte string comes before another, by the first byte that differs. -/
def bytesLt : List UInt8 → List UInt8 → Bool
  | [], [] => false
  | [], _ :: _ => true
  | _ :: _, [] => false
  | a :: as, b :: bs => if a = b then bytesLt as bs else a.toNat < b.toNat

/-- The low `n` bytes of a number, least significant first. -/
def littleEndian : (n : Nat) → Nat → List UInt8
  | 0, _ => []
  | n + 1, v => UInt8.ofNat (v % 256) :: littleEndian n (v / 256)

theorem length_littleEndian (n v : Nat) : (littleEndian n v).length = n := by
  induction n generalizing v with
  | zero => rfl
  | succ n ih => simp [littleEndian, ih]

/-- The number whose bytes are given, least significant first. -/
def ofLittleEndian : List UInt8 → Nat
  | [] => 0
  | b :: rest => b.toNat + 256 * ofLittleEndian rest

theorem ofLittleEndian_littleEndian (n v : Nat) (h : v < Nat.pow 256 n) :
    ofLittleEndian (littleEndian n v) = v := by
  induction n generalizing v with
  | zero => simp at h; simp [littleEndian, ofLittleEndian, h]
  | succ n ih =>
    have hp : Nat.pow 256 (n + 1) = Nat.pow 256 n * 256 := rfl
    have hq : v / 256 < Nat.pow 256 n := Nat.div_lt_of_lt_mul (by omega)
    simp [littleEndian, ofLittleEndian, ih _ hq]
    omega

/-- The number whose bytes are given, most significant first. -/
def ofBigEndian (bytes : List UInt8) : Nat := bytes.foldl (fun acc b => acc * 256 + b.toNat) 0

/-- The low `n` bytes of a number, most significant first. -/
def bigEndian (n v : Nat) : List UInt8 := (littleEndian n v).reverse

end Saboteur
