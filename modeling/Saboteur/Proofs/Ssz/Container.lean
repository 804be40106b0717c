import Mathlib.Algebra.GroupWithZero.Nat
import Mathlib.Data.List.Forall2
import Saboteur.Proofs.Bytes.Reading
import Saboteur.Ssz.Codec

/-!
# Containers are read back as they were written

`join` and `split` are inverse to each other: the fields of a joined container are found again, and
whatever can be split is the container of its fields. The second half is where a lenient reader
would show. It rests on the offsets: the first must point right behind the head, no offset may point
before the one before it, and each field ends where the next one begins, so no byte is left over.

The bodies are said to begin at the first offset, or at the end if there is none. With this one
number, `bodyStart`, containers of fixed and of varying size need no separate treatment.
-/

namespace Saboteur.Ssz

variable {layout : List (Option Nat)} {fields : List (List UInt8)}
variable {total position : Nat} {previous : Option Nat} {bytes : List UInt8}
variable {entries : List HeadEntry}

/-! ## Layouts and fields -/

/-- How many bytes offsets can address. -/
def addressable : Nat := Nat.pow 256 offsetSize

/-- The place of a field with these bytes. -/
def Part.ofSize : Option Nat → List UInt8 → Part
  | some _, bytes => .fixed bytes
  | none, bytes => .variable bytes

/-- The fields of a container at their places. -/
def parts (layout : List (Option Nat)) (fields : List (List UInt8)) : List Part :=
  List.zipWith Part.ofSize layout fields

/-- Whether bytes have the size that a layout asks for. -/
def Fits : Option Nat → List UInt8 → Prop
  | some size, bytes => bytes.length = size
  | none, _ => True

/-- What stands behind the head. -/
def bodies (ps : List Part) : List UInt8 := ps.flatMap Part.body

theorem part_eq {α : Type} [Codec α] (a : α) :
    part a = Part.ofSize (Codec.fixedSize α) (encode a) := by
  unfold part
  cases Codec.fixedSize α <;> rfl

theorem length_head (h : List.Forall₂ Fits layout fields) (offset : Nat) :
    (head offset (parts layout fields)).length = layoutSize layout := by
  induction h generalizing offset with
  | nil => rfl
  | @cons size field layout fields hfits _ ih =>
    cases size with
    | some n =>
      show (field ++ head offset (parts layout fields)).length = n + layoutSize layout
      rw [List.length_append, ih, hfits]
    | none =>
      show (littleEndian offsetSize offset ++ head (offset + field.length)
        (parts layout fields)).length = offsetSize + layoutSize layout
      rw [List.length_append, ih, length_littleEndian]

theorem headSize_parts (h : List.Forall₂ Fits layout fields) :
    (parts layout fields).foldr (fun p n => p.headSize + n) 0 = layoutSize layout := by
  induction h with
  | nil => rfl
  | @cons size field layout fields hfits _ ih =>
    show (Part.ofSize size field).headSize + (parts layout fields).foldr _ 0 = _
    rw [ih]
    cases size with
    | some n => rw [← hfits]; rfl
    | none => rfl

theorem join_parts (h : List.Forall₂ Fits layout fields) :
    join (parts layout fields) =
      head (layoutSize layout) (parts layout fields) ++ bodies (parts layout fields) := by
  rw [join, headSize_parts h]
  rfl

theorem length_join (h : List.Forall₂ Fits layout fields) :
    (join (parts layout fields)).length =
      layoutSize layout + (bodies (parts layout fields)).length := by
  rw [join_parts h, List.length_append, length_head h]

/-- Besides its fields a container holds at most one offset for each. -/
theorem length_join_le (h : List.Forall₂ Fits layout fields) :
    (join (parts layout fields)).length ≤
      layout.length * offsetSize + (fields.map List.length).sum := by
  rw [length_join h]
  induction h with
  | nil => exact Nat.le_refl _
  | @cons size field layout fields hfits _ ih =>
    rw [List.length_cons, List.map_cons, List.sum_cons, Nat.succ_mul]
    cases size with
    | some n =>
      have hn : field.length = n := hfits
      show n + layoutSize layout + (bodies (parts layout fields)).length ≤ _
      omega
    | none =>
      show offsetSize + layoutSize layout + (field ++ bodies (parts layout fields)).length ≤ _
      rw [List.length_append]
      omega

theorem bodies_eq_nil (h : layout.all Option.isSome = true)
    (fields : List (List UInt8)) : bodies (parts layout fields) = [] := by
  induction layout generalizing fields with
  | nil => rfl
  | cons size layout ih =>
    rw [List.all_cons, Bool.and_eq_true] at h
    cases size with
    | none => exact absurd h.1 (by simp)
    | some n =>
      cases fields with
      | nil => rfl
      | cons field fields => exact ih h.2 fields

/-! ## Offsets -/

theorem readOffset_eq_ok_iff {o : Nat} :
    readOffset bytes = .ok o ↔
      offsetSize ≤ bytes.length ∧ ofLittleEndian (bytes.take offsetSize) = o := by
  unfold readOffset
  split
  case isTrue h => simp [h]
  case isFalse h => simp [h]

theorem readOffset_littleEndian {o : Nat} (h : o < addressable) (rest : List UInt8) :
    readOffset (littleEndian offsetSize o ++ rest) = .ok o := by
  have hlength := length_littleEndian offsetSize o
  refine readOffset_eq_ok_iff.2 ⟨by rw [List.length_append]; omega, ?_⟩
  rw [List.take_left' hlength, ofLittleEndian_littleEndian _ _ h]

theorem littleEndian_of_readOffset {o : Nat} (h : readOffset bytes = .ok o) :
    littleEndian offsetSize o = bytes.take offsetSize := by
  obtain ⟨hle, rfl⟩ := readOffset_eq_ok_iff.1 h
  have hbytes := littleEndian_ofLittleEndian (bytes.take offsetSize)
  rwa [List.length_take_of_le hle] at hbytes

theorem checkOffset_eq_ok_iff {o : Nat} :
    checkOffset total previous o = .ok () ↔ o ≤ total ∧ ∀ p ∈ previous, p ≤ o := by
  unfold checkOffset
  by_cases htotal : total < o
  · rw [if_pos htotal]
    simp only [reduceCtorEq, false_iff, not_and]
    omega
  · rw [if_neg htotal]
    cases previous with
    | none => simpa using htotal
    | some p =>
      by_cases hp : o < p
      · simp [hp]
      · simp only [Option.any_some, decide_eq_true_eq, if_neg hp, Option.mem_some_iff,
          forall_eq', true_iff]
        omega

/-! ## Reading a head -/

theorem readHead_fixed_iff {size : Nat} :
    readHead total position previous bytes (some size :: layout) = .ok entries ↔
      size ≤ bytes.length ∧ ∃ rest,
        readHead total (position + size) previous (bytes.drop size) layout = .ok rest ∧
          entries = .bytes (bytes.take size) :: rest := by
  rw [readHead]
  by_cases hsize : size ≤ bytes.length
  · rw [if_pos hsize, map_eq_ok_iff]
    simp [hsize, eq_comm]
  · rw [if_neg hsize]
    simp [hsize]

theorem readHead_offset_iff :
    readHead total position previous bytes (none :: layout) = .ok entries ↔
      ∃ o rest, readOffset bytes = .ok o ∧ (o ≤ total ∧ ∀ p ∈ previous, p ≤ o) ∧
        readHead total (position + offsetSize) (some o) (bytes.drop offsetSize) layout =
          .ok rest ∧ entries = .offset o :: rest := by
  rw [readHead]
  constructor
  · intro h
    split at h
    case h_1 => cases h
    case h_2 o hread =>
      split at h
      case h_1 => cases h
      case h_2 hcheck =>
        obtain ⟨rest, hrest, rfl⟩ := map_eq_ok_iff.1 h
        exact ⟨o, rest, hread, checkOffset_eq_ok_iff.1 hcheck, hrest, rfl⟩
  · rintro ⟨o, rest, hread, hcheck, hrest, rfl⟩
    simp only [hread, checkOffset_eq_ok_iff.2 hcheck, hrest]
    rfl

/-! ## Where the bodies begin -/

/-- Where the bodies of a container begin: at the first offset, or at the end. -/
def bodyStart (total : Nat) (entries : List HeadEntry) : Nat := (firstOffset? entries).getD total

/-- A field of varying size ends where the bodies of the fields after it begin. -/
theorem resolve_offset {container : List UInt8} {o : Nat} (entries : List HeadEntry) :
    resolve container (.offset o :: entries) =
      (container.drop o).take (bodyStart container.length entries - o) ::
        resolve container entries := by
  rw [resolve, bodyStart]
  cases firstOffset? entries with
  | some next => rfl
  | none => rw [Option.getD_none, List.take_of_length_le (Nat.le_of_eq List.length_drop)]

/-- Without an offset every place of the layout has a fixed size. -/
theorem firstOffset?_eq_none_iff (h : readHead total position previous bytes layout = .ok entries) :
    firstOffset? entries = none ↔ layout.all Option.isSome = true := by
  induction layout generalizing position previous bytes entries with
  | nil =>
    cases h
    exact iff_of_true rfl rfl
  | cons size layout ih =>
    cases size with
    | some n =>
      obtain ⟨-, rest, hrest, rfl⟩ := readHead_fixed_iff.1 h
      exact (ih hrest).trans (by simp)
    | none =>
      obtain ⟨o, rest, -, -, -, rfl⟩ := readHead_offset_iff.1 h
      simp [firstOffset?]

/-- Splitting reads the head and accepts it when the bodies begin right behind it. -/
theorem split_eq_ok_iff {container : List UInt8} :
    split layout container = .ok fields ↔
      ∃ entries, readHead container.length 0 none container layout = .ok entries ∧
        bodyStart container.length entries = layoutSize layout ∧
        fields = resolve container entries := by
  simp only [split]
  constructor
  · intro h
    by_cases hfixed : layout.all Option.isSome = true ∧ container.length ≠ layoutSize layout
    · rw [if_pos hfixed] at h
      cases h
    rw [if_neg hfixed] at h
    cases hread : readHead container.length 0 none container layout with
    | error e =>
      rw [hread] at h
      cases h
    | ok entries =>
      refine ⟨entries, rfl, ?_⟩
      cases hfirst : firstOffset? entries with
      | none =>
        -- without an offset the check of the whole length has been made
        have hall := (firstOffset?_eq_none_iff hread).1 hfirst
        have hlength : container.length = layoutSize layout :=
          Classical.byContradiction fun hne => hfixed ⟨hall, hne⟩
        simp only [hread, hfirst] at h
        exact ⟨by rw [bodyStart, hfirst, Option.getD_none, hlength], (Except.ok.inj h).symm⟩
      | some o =>
        simp only [hread, hfirst] at h
        split at h
        case isTrue => cases h
        case isFalse hlow =>
          split at h
          case isTrue => cases h
          case isFalse hhigh =>
            refine ⟨?_, (Except.ok.inj h).symm⟩
            rw [bodyStart, hfirst, Option.getD_some]
            omega
  · rintro ⟨entries, hread, hstart, rfl⟩
    unfold bodyStart at hstart
    cases hfirst : firstOffset? entries with
    | none =>
      rw [hfirst, Option.getD_none] at hstart
      rw [if_neg fun hand => hand.2 hstart]
      simp only [hread, hfirst]
    | some o =>
      rw [hfirst, Option.getD_some] at hstart
      have hall : ¬layout.all Option.isSome = true := by
        rw [← firstOffset?_eq_none_iff hread, hfirst]
        exact Option.some_ne_none o
      rw [if_neg fun hand => hall hand.1]
      simp only [hread, hfirst, hstart, Nat.lt_irrefl, if_false]

/-! ## What was joined is split again -/

/-- What the head of a container says when its bodies begin at `offset`. -/
def entriesOf : (offset : Nat) → List (Option Nat) → List (List UInt8) → List HeadEntry
  | offset, some _ :: layout, field :: fields => .bytes field :: entriesOf offset layout fields
  | offset, none :: layout, field :: fields =>
    .offset offset :: entriesOf (offset + field.length) layout fields
  | _, _, _ => []

/-- A head that was written is read, whatever comes behind it. -/
theorem readHead_head (h : List.Forall₂ Fits layout fields) {offset : Nat}
    (htotal : total < addressable)
    (hoffset : offset + (bodies (parts layout fields)).length ≤ total)
    (hprevious : ∀ p ∈ previous, p ≤ offset) (position : Nat) (rest : List UInt8) :
    readHead total position previous (head offset (parts layout fields) ++ rest) layout =
      .ok (entriesOf offset layout fields) := by
  induction h generalizing offset previous position with
  | nil => rfl
  | @cons size field layout fields hfits _ ih =>
    cases size with
    | some n =>
      have hn : field.length = n := hfits
      have hbytes : head offset (parts (some n :: layout) (field :: fields)) ++ rest =
          field ++ (head offset (parts layout fields) ++ rest) := List.append_assoc _ _ _
      rw [hbytes]
      refine readHead_fixed_iff.2
        ⟨by rw [List.length_append]; omega, entriesOf offset layout fields, ?_, ?_⟩
      · rw [List.drop_left' hn]
        exact ih hoffset hprevious _
      · rw [List.take_left' hn]
        rfl
    | none =>
      have hbytes : head offset (parts (none :: layout) (field :: fields)) ++ rest =
          littleEndian offsetSize offset ++
            (head (offset + field.length) (parts layout fields) ++ rest) :=
        List.append_assoc _ _ _
      have hbodies : (bodies (parts (none :: layout) (field :: fields))).length =
          field.length + (bodies (parts layout fields)).length := List.length_append
      rw [hbodies] at hoffset
      rw [hbytes]
      refine readHead_offset_iff.2 ⟨offset, entriesOf (offset + field.length) layout fields,
        readOffset_littleEndian (by omega) _, ⟨by omega, hprevious⟩, ?_, rfl⟩
      rw [List.drop_left' (length_littleEndian _ _)]
      refine ih (by omega) ?_ _
      rintro p ⟨⟩
      omega

/-- The first offset is where the bodies were put. Without one there are no bodies. -/
theorem bodyStart_entriesOf (h : List.Forall₂ Fits layout fields) (offset : Nat) :
    bodyStart (offset + (bodies (parts layout fields)).length) (entriesOf offset layout fields) =
      offset := by
  induction h generalizing offset with
  | nil => rfl
  | @cons size field layout fields _ _ ih =>
    cases size with
    | some n => exact ih offset
    | none => rfl

theorem resolve_entriesOf (h : List.Forall₂ Fits layout fields) {container : List UInt8}
    {offset : Nat}
    (hlength : container.length = offset + (bodies (parts layout fields)).length)
    (hbodies : container.drop offset = bodies (parts layout fields)) :
    resolve container (entriesOf offset layout fields) = fields := by
  induction h generalizing offset with
  | nil => rfl
  | @cons size field layout fields _ hrest ih =>
    cases size with
    | some n => exact congrArg (field :: ·) (ih hlength hbodies)
    | none =>
      have hcons : bodies (parts (none :: layout) (field :: fields)) =
          field ++ bodies (parts layout fields) := rfl
      rw [hcons] at hbodies
      rw [hcons, List.length_append, ← Nat.add_assoc] at hlength
      have hnext : container.drop (offset + field.length) = bodies (parts layout fields) := by
        rw [← List.drop_drop, hbodies, List.drop_left' rfl]
      rw [entriesOf, resolve_offset, ih hlength hnext, hlength, bodyStart_entriesOf hrest,
        Nat.add_sub_cancel_left, hbodies, List.take_left' rfl]

/-- **The fields of a joined container are found again.** -/
theorem split_join (h : List.Forall₂ Fits layout fields)
    (hsize : (join (parts layout fields)).length < addressable) :
    split layout (join (parts layout fields)) = .ok fields := by
  have hhead := length_head h (layoutSize layout)
  have hjoin := join_parts h
  have hlength := length_join h
  refine split_eq_ok_iff.2 ⟨entriesOf (layoutSize layout) layout fields, ?_, ?_, ?_⟩
  · have hread : readHead (join (parts layout fields)).length 0 none
        (head (layoutSize layout) (parts layout fields) ++ bodies (parts layout fields)) layout =
          .ok (entriesOf (layoutSize layout) layout fields) :=
      readHead_head h hsize (Nat.le_of_eq hlength.symm) (by simp) 0 _
    rwa [← hjoin] at hread
  · rw [hlength]
    exact bodyStart_entriesOf h _
  · refine (resolve_entriesOf h hlength ?_).symm
    rw [hjoin, List.drop_left' hhead]

/-! ## What was split is joined again -/

/-- The bodies begin neither before the offset that came last nor behind the end. -/
theorem bodyStart_bounds (h : readHead total position previous bytes layout = .ok entries)
    (hprevious : ∀ p ∈ previous, p ≤ total) :
    (∀ p ∈ previous, p ≤ bodyStart total entries) ∧ bodyStart total entries ≤ total := by
  induction layout generalizing position previous bytes entries with
  | nil =>
    cases h
    exact ⟨hprevious, Nat.le_refl _⟩
  | cons size layout ih =>
    cases size with
    | some n =>
      obtain ⟨-, rest, hrest, rfl⟩ := readHead_fixed_iff.1 h
      show (∀ p ∈ previous, p ≤ bodyStart total rest) ∧ bodyStart total rest ≤ total
      exact ih hrest hprevious
    | none =>
      obtain ⟨o, rest, -, ⟨ho, hle⟩, -, rfl⟩ := readHead_offset_iff.1 h
      exact ⟨hle, ho⟩

/-- The fields that were found fit the layout, and at their places they are the bytes of the head
that was read and the bodies behind it. -/
theorem parts_resolve {container : List UInt8}
    (h : readHead container.length position previous bytes layout = .ok entries) :
    List.Forall₂ Fits layout (resolve container entries) ∧
      head (bodyStart container.length entries) (parts layout (resolve container entries)) =
        bytes.take (layoutSize layout) ∧
      bodies (parts layout (resolve container entries)) =
        container.drop (bodyStart container.length entries) := by
  induction layout generalizing position previous bytes entries with
  | nil =>
    cases h
    exact ⟨.nil, rfl, List.drop_length.symm⟩
  | cons size layout ih =>
    cases size with
    | some n =>
      obtain ⟨hn, rest, hrest, rfl⟩ := readHead_fixed_iff.1 h
      obtain ⟨hfits, hhead, hbodies⟩ := ih hrest
      refine ⟨.cons (List.length_take_of_le hn) hfits, ?_, hbodies⟩
      show bytes.take n ++ head (bodyStart container.length rest)
        (parts layout (resolve container rest)) = bytes.take (n + layoutSize layout)
      rw [hhead, List.take_add]
    | none =>
      obtain ⟨o, rest, hread, ⟨ho, -⟩, hrest, rfl⟩ := readHead_offset_iff.1 h
      obtain ⟨hfits, hhead, hbodies⟩ := ih hrest
      obtain ⟨hlow, hhigh⟩ := bodyStart_bounds hrest (by rintro p ⟨⟩; exact ho)
      have hnext : o ≤ bodyStart container.length rest := hlow o rfl
      have hoffset := littleEndian_of_readOffset hread
      -- the field ends where the next bodies begin, so its length leads to their offset
      have hfield : ((container.drop o).take (bodyStart container.length rest - o)).length =
          bodyStart container.length rest - o := by
        rw [List.length_take, List.length_drop]
        omega
      rw [resolve_offset]
      refine ⟨.cons trivial hfits, ?_, ?_⟩
      · show littleEndian offsetSize o ++ head (o + List.length _)
          (parts layout (resolve container rest)) = bytes.take (offsetSize + layoutSize layout)
        rw [hfield, Nat.add_sub_cancel' hnext, hhead, hoffset, List.take_add]
      · show (container.drop o).take _ ++ bodies (parts layout (resolve container rest)) =
          container.drop o
        rw [hbodies]
        conv_rhs => rw [← List.take_append_drop (bodyStart container.length rest - o)
          (container.drop o)]
        rw [List.drop_drop, Nat.add_sub_cancel' hnext]

/-- **What can be split is the container of the fields that are found.** -/
theorem join_of_split {container : List UInt8} (h : split layout container = .ok fields) :
    List.Forall₂ Fits layout fields ∧ container = join (parts layout fields) := by
  obtain ⟨entries, hread, hstart, rfl⟩ := split_eq_ok_iff.1 h
  obtain ⟨hfits, hhead, hbodies⟩ := parts_resolve hread
  refine ⟨hfits, ?_⟩
  rw [hstart] at hhead hbodies
  rw [join_parts hfits, hhead, hbodies, List.take_append_drop]

end Saboteur.Ssz
