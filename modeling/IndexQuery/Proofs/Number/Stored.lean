import IndexQuery.Proofs.Number.Nearest
import IndexQuery.Proofs.Number.Octets
set_option autoImplicit false

/-! # Reading a stored vector

The index reads the octets of a vector back as numbers of the stored format: octets in increasing
order of weight are one number (`ofLittleEndian`), a cell of the component's width is one component,
and a component stored in double precision is narrowed (`Double.toSingle`) where single precision is
wanted. A vector of finite components comes back as it was, bit for bit and in order
(`stored_vector_reads_back`): widening does not round, so narrowing finds the number it came from.
-/

namespace IndexQuery

open BinaryFormat (binary32 binary64)

/-! ## Octets -/

/-- The number whose octets are given in increasing order of weight. -/
def ofLittleEndian : List UInt8 → Nat
  | [] => 0
  | octet :: rest => octet.toNat + 256 * ofLittleEndian rest

theorem ofLittleEndian_littleEndian {width n : Nat} (hn : n < 256 ^ width) :
    ofLittleEndian (littleEndian width n) = n := by
  induction width generalizing n with
  | zero =>
      rw [Nat.pow_zero] at hn
      rw [littleEndian, ofLittleEndian]
      omega
  | succ width ih =>
      have hrest : n / 256 < 256 ^ width := by
        rw [Nat.pow_succ] at hn
        omega
      rw [littleEndian, ofLittleEndian, ih hrest, UInt8.toNat_ofNat']
      omega

/-! ## Narrowing -/

/-- The number of single precision nearest to a number; one that is too large becomes an infinity,
and what is not a number stays so. -/
def Double.toSingle (x : Double) : Single :=
  Single.ofOrdinal x.negative <|
    if x.isNaN then binary32.infinity + 2 ^ 22
    else binary32.nearest x.units (2 ^ (binary64.scale - binary32.scale))

namespace Single

theorem ordinal_lt_signWeight (x : Single) : x.ordinal < binary32.signWeight :=
  Nat.mod_lt _ (Nat.two_pow_pos _)

theorem ordinal_ofOrdinal (sign : Bool) {n : Nat} (hn : n < binary32.signWeight) :
    (ofOrdinal sign n).ordinal = n := by
  have hweight : binary32.signWeight = 2 ^ 31 := rfl
  unfold ofOrdinal ordinal
  rw [hweight] at hn ⊢
  rw [UInt32.toNat_ofNat']
  cases sign with
  | true => simp only [if_true]; omega
  | false => simp only [Bool.false_eq_true, if_false]; omega

theorem negative_ofOrdinal (sign : Bool) {n : Nat} (hn : n < binary32.signWeight) :
    (ofOrdinal sign n).negative = sign := by
  have hweight : binary32.signWeight = 2 ^ 31 := rfl
  unfold ofOrdinal negative
  rw [hweight] at hn ⊢
  rw [UInt32.toNat_ofNat']
  cases sign with
  | true => simp only [if_true, decide_eq_true_eq]; omega
  | false => simp only [Bool.false_eq_true, if_false, decide_eq_false_iff_not]; omega

/-- Narrowing undoes widening. -/
theorem toSingle_toDouble {x : Single} (hx : x.isFinite = true) : x.toDouble.toSingle = x := by
  obtain ⟨hnegative, hunits⟩ := toDouble_value hx
  have hordinal : x.ordinal ≤ binary32.infinity := Nat.le_of_lt (of_decide_eq_true hx)
  have hlt := x.ordinal_lt_signWeight
  -- the widened units are the units of the component, counted in the finer unit
  have hnearest : binary32.nearest x.wideUnits (2 ^ (binary64.scale - binary32.scale))
      = x.ordinal := by
    have hcommon := binary32.nearest_mul_right
      (Nat.two_pow_pos (binary64.scale - binary32.scale)) (binary32.units x.ordinal) 1
    rw [Nat.one_mul, binary32.nearest_units hordinal] at hcommon
    exact hcommon
  rw [Double.toSingle, Double.isNaN_of_isFinite (isFinite_toDouble hx), if_neg Bool.false_ne_true,
    hnegative, hunits, hnearest]
  exact eq_of_ordinal (negative_ofOrdinal _ hlt) (ordinal_ofOrdinal _ hlt)

end Single

/-! ## Vectors -/

/-- The first `count` cells of a row of octets, each of the given width. -/
def cells (width : Nat) : Nat → List UInt8 → List (List UInt8)
  | 0, _ => []
  | count + 1, octets => octets.take width :: cells width count (octets.drop width)

/-- The component stored in a cell. -/
def readComponent : VectorElementType → List UInt8 → Single
  | .float32, cell => ⟨UInt32.ofNat (ofLittleEndian cell)⟩
  | .float64, cell => (Double.mk (UInt64.ofNat (ofLittleEndian cell))).toSingle

/-- The components stored in a row of octets. -/
def readVector (elementType : VectorElementType) (octets : List UInt8) : List Single :=
  (cells elementType.byteWidth (octets.length / elementType.byteWidth) octets).map
    (readComponent elementType)

/-- The octets of one component. -/
def componentOctets (elementType : VectorElementType) (x : Single) : List UInt8 :=
  match elementType with
  | .float32 => littleEndian 4 x.bits.toNat
  | .float64 => littleEndian 8 x.toDouble.bits.toNat

theorem vectorBlob_eq_flatMap (xs : List Single) (elementType : VectorElementType) :
    vectorBlob xs elementType = xs.flatMap (componentOctets elementType) := rfl

theorem length_componentOctets (elementType : VectorElementType) (x : Single) :
    (componentOctets elementType x).length = elementType.byteWidth := by
  cases elementType with
  | float32 => exact length_littleEndian 4 _
  | float64 => exact length_littleEndian 8 _

theorem readComponent_octets (elementType : VectorElementType) {x : Single}
    (hx : x.isFinite = true) : readComponent elementType (componentOctets elementType x) = x := by
  cases elementType with
  | float32 =>
      rw [componentOctets, readComponent, ofLittleEndian_littleEndian x.bits.toNat_lt,
        UInt32.ofNat_toNat]
  | float64 =>
      rw [componentOctets, readComponent, ofLittleEndian_littleEndian x.toDouble.bits.toNat_lt,
        UInt64.ofNat_toNat]
      exact Single.toSingle_toDouble hx

theorem length_vectorBlob (xs : List Single) (elementType : VectorElementType) :
    (vectorBlob xs elementType).length = xs.length * elementType.byteWidth := by
  rw [vectorBlob_eq_flatMap]
  induction xs with
  | nil => rw [List.flatMap_nil, List.length_nil, List.length_nil, Nat.zero_mul]
  | cons x xs ih =>
      rw [List.flatMap_cons, List.length_append, length_componentOctets, ih, List.length_cons,
        Nat.succ_mul, Nat.add_comm]

/-- A row of cells falls apart into them. -/
theorem cells_flatMap {α : Type} {width : Nat} {write : α → List UInt8}
    (hwidth : ∀ x, (write x).length = width) (xs : List α) :
    cells width xs.length (xs.flatMap write) = xs.map write := by
  induction xs with
  | nil => rfl
  | cons x xs ih =>
      rw [List.length_cons, List.flatMap_cons, cells, List.take_left' (hwidth x),
        List.drop_left' (hwidth x), ih, List.map_cons]

theorem readVector_vectorBlob {xs : List Single} (elementType : VectorElementType)
    (hxs : ∀ x ∈ xs, x.isFinite = true) :
    readVector elementType (vectorBlob xs elementType) = xs := by
  have hpos : 0 < elementType.byteWidth := by cases elementType <;> decide
  rw [readVector, length_vectorBlob, Nat.mul_div_cancel _ hpos, vectorBlob_eq_flatMap,
    cells_flatMap (length_componentOctets elementType), List.map_map]
  have hread : ∀ x ∈ xs, (readComponent elementType ∘ componentOctets elementType) x = id x :=
    fun x hx => readComponent_octets elementType (hxs x hx)
  rw [List.map_congr_left hread, List.map_id]

/-- A vector of finite components is stored in as many octets as its components take, and reading
them back gives the components bit for bit and in order; so no other vector of finite components is
stored in the same octets. -/
theorem stored_vector_reads_back {xs : List Single} (elementType : VectorElementType)
    (hxs : ∀ x ∈ xs, x.isFinite = true) :
    (vectorBlob xs elementType).length = xs.length * elementType.byteWidth ∧
      readVector elementType (vectorBlob xs elementType) = xs ∧
      ∀ ys : List Single, (∀ y ∈ ys, y.isFinite = true) →
        vectorBlob ys elementType = vectorBlob xs elementType → ys = xs := by
  refine ⟨length_vectorBlob xs elementType, readVector_vectorBlob elementType hxs,
    fun ys hys h => ?_⟩
  calc ys = readVector elementType (vectorBlob ys elementType) :=
        (readVector_vectorBlob elementType hys).symm
    _ = readVector elementType (vectorBlob xs elementType) := by rw [h]
    _ = xs := readVector_vectorBlob elementType hxs

/-- Negative zero, the smallest number and the largest one. -/
theorem stored_vector_reads_back_extremes :
    let xs : List Single := [⟨0x80000000⟩, ⟨1⟩, ⟨0x7F7FFFFF⟩]
    (∀ x ∈ xs, x.isFinite = true) ∧ (vectorBlob xs .float64).length = 24 ∧
      (vectorBlob xs .float64).take 8 = [0, 0, 0, 0, 0, 0, 0, 0x80] ∧
      readVector .float64 (vectorBlob xs .float64) = xs ∧
      readVector .float32 (vectorBlob xs .float32) = xs := by
  intro xs
  have hxs : ∀ x ∈ xs, x.isFinite = true := by decide
  obtain ⟨hlength, hwide, -⟩ := stored_vector_reads_back .float64 hxs
  obtain ⟨-, hnarrow, -⟩ := stored_vector_reads_back .float32 hxs
  exact ⟨hxs, hlength, by decide +kernel, hwide, hnarrow⟩

end IndexQuery
