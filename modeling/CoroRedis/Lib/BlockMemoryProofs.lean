import Mathlib.Data.List.GetD

/-! # Memory as separate blocks of bytes

    Every object lives in a block of its own, and an address is a block with
    an offset.  A store changes the addresses it covers and no other, so what
    is loaded from one block survives every store to another.

    `ByteRepr` is a type whose values are stored as a fixed number of bytes
    that determine them. -/

namespace BlockMemory

variable {β : Type}

/-- The bytes of every block, by offset. -/
abbrev Mem (β : Type) := Nat → Nat → β

/-- The `n` bytes from an address on. -/
def load (m : Mem β) (b o n : Nat) : List β :=
  (List.range n).map fun i => m b (o + i)

/-- Write the bytes from an address on. -/
def store (m : Mem β) (b o : Nat) (bs : List β) : Mem β :=
  fun b' o' =>
    if b' = b ∧ o ≤ o' then bs.getD (o' - o) (m b' o') else m b' o'

/-- The addresses a store of `n` bytes covers. -/
def covered (b o n : Nat) : List (Nat × Nat) :=
  (List.range n).map fun i => (b, o + i)

theorem mem_covered {b o n : Nat} {a : Nat × Nat} :
    a ∈ covered b o n ↔ a.1 = b ∧ o ≤ a.2 ∧ a.2 < o + n := by
  rw [covered, List.mem_map]
  constructor
  · rintro ⟨i, hi, rfl⟩
    have := List.mem_range.mp hi
    exact ⟨rfl, by omega, by omega⟩
  · rintro ⟨hb, hlo, hhi⟩
    refine ⟨a.2 - o, List.mem_range.mpr (by omega), ?_⟩
    rw [← hb, Nat.add_sub_cancel' hlo]

/-- **FRAME**: outside the addresses it covers, a store changes nothing. -/
theorem store_frame (m : Mem β) {b o : Nat} {bs : List β}
    {a : Nat × Nat} (h : a ∉ covered b o bs.length) :
    store m b o bs a.1 a.2 = m a.1 a.2 := by
  rw [store]
  by_cases hc : a.1 = b ∧ o ≤ a.2
  · rw [if_pos hc]
    refine List.getD_eq_default _ _ (Nat.le_of_not_lt fun hlt => ?_)
    exact h (mem_covered.mpr ⟨hc.1, hc.2, by omega⟩)
  · rw [if_neg hc]

/-- A block does not see the stores to other blocks. -/
theorem load_store_other (m : Mem β) {b b' : Nat} (h : b' ≠ b) (o o' n : Nat)
    (bs : List β) : load (store m b o bs) b' o' n = load m b' o' n := by
  refine List.map_congr_left fun i _ => ?_
  have hout : (b', o' + i) ∉ covered b o bs.length :=
    fun hmem => h (mem_covered.mp hmem).1
  exact store_frame m hout

/-- What was stored is loaded. -/
theorem load_store_same (m : Mem β) (b o : Nat) (bs : List β) :
    load (store m b o bs) b o bs.length = bs := by
  refine List.ext_getElem ?_ fun i hi hi' => ?_
  · rw [load, List.length_map, List.length_range]
  · have hb : store m b o bs b (o + i) = bs[i] := by
      rw [store, if_pos ⟨rfl, Nat.le_add_right o i⟩, Nat.add_sub_cancel_left,
        List.getD_eq_getElem _ _ hi']
    simpa [load] using hb

/-- A type stored as `size` bytes, which determine the value. -/
structure ByteRepr (T β : Type) where
  size : Nat
  encode : T → List β
  decode : List β → T
  length_encode : ∀ v, (encode v).length = size
  decode_encode : ∀ v, decode (encode v) = v

namespace ByteRepr

variable {T : Type} (R : ByteRepr T β)

/-- The value stored at an address. -/
def read (m : Mem β) (b o : Nat) : T := R.decode (load m b o R.size)

/-- Assign to the object at an address. -/
def write (m : Mem β) (b o : Nat) (v : T) : Mem β :=
  store m b o (R.encode v)

theorem read_write_same (m : Mem β) (b o : Nat) (v : T) :
    R.read (R.write m b o v) b o = v := by
  rw [read, write, ← R.length_encode v, load_store_same, R.decode_encode]

theorem read_write_other (m : Mem β) {b b' : Nat} (h : b' ≠ b) (o o' : Nat)
    (v : T) : R.read (R.write m b o v) b' o' = R.read m b' o' := by
  rw [read, write, load_store_other m h, read]

/-- A type without bytes has one value. -/
theorem eq_of_size_zero (h : R.size = 0) (v w : T) : v = w := by
  have hnil : ∀ u, R.encode u = [] := by
    intro u
    exact List.eq_nil_of_length_eq_zero ((R.length_encode u).trans h)
  rw [← R.decode_encode v, ← R.decode_encode w, hnil, hnil]

end ByteRepr

end BlockMemory
