import Mathlib.Data.List.Basic
import Mathlib.Data.List.GetD
import Mathlib.Data.Int.ModEq
import Mathlib.Data.Fin.Tuple.Basic

namespace SelfQuant

open List Nat UInt8

/-- The lowest `k` bytes of a number, the lowest one first. -/
def littleEndian : Nat → Nat → List UInt8
  | 0, _ => []
  | k + 1, n => ofNat n :: littleEndian k (n / 256)

def ofLittleEndian : List UInt8 → Nat
  | [] => 0
  | byte :: bytes => byte.toNat + 256 * ofLittleEndian bytes

@[simp] theorem length_littleEndian (k n : Nat) : (littleEndian k n).length = k := by
  induction k generalizing n with
  | zero => rfl
  | succ k ih => rw [littleEndian, length_cons, ih]

theorem ofLittleEndian_littleEndian (k n : Nat) : ofLittleEndian (littleEndian k n) = n % 256 ^ k := by
  induction k generalizing n with
  | zero => rw [pow_zero, mod_one, littleEndian, ofLittleEndian]
  | succ k ih =>
    have hbyte : (ofNat n).toNat = n % 256 := toNat_ofNat'
    rw [littleEndian, ofLittleEndian, ih, hbyte, pow_succ', mod_mul]

theorem mod_ne_of_lt_of_lt {u v size : Nat} (h : u < v) (hlap : v < u + size) : u % size ≠ v % size := by
  intro heq
  have hdvd : size ∣ v - u := (modEq_iff_dvd' h.le).mp heq
  have hle := le_of_dvd (by omega) hdvd
  omega

theorem add_mod_of_lt {c i size : Nat} (h : c % size + i < size) : (c + i) % size = c % size + i := by
  rw [← mod_add_mod, mod_eq_of_lt h]

theorem mod_next_lap {c size : Nat} (hsz : 0 < size) : (c + (size - c % size)) % size = 0 := by
  have hlt := mod_lt c hsz
  have hlap : c + (size - c % size) = size * (c / size + 1) := by
    have := div_add_mod c size
    rw [mul_add]
    omega
  rw [hlap, mul_mod_right]

theorem mod_outside {c s n size : Nat} (hsz : 0 < size) (hc : c < s) (hlap : s + n ≤ c + size) :
    c % size < s % size ∨ s % size + n ≤ c % size := by
  by_contra hin
  have hlt := mod_lt c hsz
  have hpl : (s + (c % size - s % size)) % size = s % size + (c % size - s % size) := add_mod_of_lt (by omega)
  have hne : c % size ≠ (s + (c % size - s % size)) % size := mod_ne_of_lt_of_lt (by omega) (by omega)
  omega

abbrev Memory : Type := Nat → UInt8

namespace Memory

variable {m m' : Memory} {a b n k : Nat} {bytes : List UInt8}

def store (m : Memory) (a : Nat) (bytes : List UInt8) : Memory := fun i =>
  if a ≤ i ∧ i < a + bytes.length then bytes.getD (i - a) 0 else m i

def load (m : Memory) (a n : Nat) : List UInt8 := (range n).map fun i => m (a + i)

@[simp] theorem length_load : (m.load a n).length = n := by
  rw [load, length_map, length_range]

theorem load_congr (h : ∀ i < n, m (a + i) = m' (a + i)) : m.load a n = m'.load a n :=
  map_congr_left fun i hi => h i (mem_range.mp hi)

theorem store_outside {i : Nat} (h : i < a ∨ a + bytes.length ≤ i) : m.store a bytes i = m i := if_neg (by omega)

theorem load_store_of_disjoint (h : b + n ≤ a ∨ a + bytes.length ≤ b) : (m.store a bytes).load b n = m.load b n :=
  load_congr fun i hi => store_outside (by omega)

theorem load_store_part (hb : b + n ≤ bytes.length) : (m.store a bytes).load (a + b) n = (bytes.drop b).take n := by
  apply ext_getElem
  · rw [length_load, length_take, length_drop]
    omega
  · intro i hi hi'
    rw [length_load] at hi
    have hin : a ≤ a + b + i ∧ a + b + i < a + bytes.length := ⟨by omega, by omega⟩
    have hix : a + b + i - a = b + i := by omega
    simp only [load, getElem_map, getElem_range, store, if_pos hin, hix, getElem_take, getElem_drop]
    exact getD_eq_getElem _ _ (by omega)

theorem load_store_self : (m.store a bytes).load a bytes.length = bytes := by
  have h : (m.store a bytes).load (a + 0) bytes.length = (bytes.drop 0).take bytes.length :=
    load_store_part (by omega)
  rw [drop_zero, take_length] at h
  exact h

def loadNat (m : Memory) (a k : Nat) : Nat := ofLittleEndian (m.load a k)

theorem loadNat_congr (h : ∀ i < k, m (a + i) = m' (a + i)) : m.loadNat a k = m'.loadNat a k := by
  rw [loadNat, loadNat, load_congr h]

theorem loadNat_store (before after : List UInt8) (hb : b = a + before.length) (hn : n < 256 ^ k) :
    (m.store a (before ++ littleEndian k n ++ after)).loadNat b k = n := by
  have hpart : (m.store a (before ++ littleEndian k n ++ after)).load (a + before.length) k =
      littleEndian k n := by
    rw [load_store_part (by simp only [length_append, length_littleEndian]; omega),
      append_assoc, drop_left, take_left' (length_littleEndian k n)]
  rw [loadNat, hb, hpart, ofLittleEndian_littleEndian, mod_eq_of_lt hn]

end Memory

variable {α β : Type}

theorem ofLittleEndian_lt (bytes : List UInt8) : ofLittleEndian bytes < 256 ^ bytes.length := by
  induction bytes with
  | nil => rw [ofLittleEndian, length_nil]; omega
  | cons byte bytes ih =>
    have hbyte := byte.toNat_lt
    rw [ofLittleEndian, length_cons]
    omega

theorem littleEndian_ofLittleEndian (bytes : List UInt8) :
    littleEndian bytes.length (ofLittleEndian bytes) = bytes := by
  induction bytes with
  | nil => rfl
  | cons byte bytes ih =>
    have hbyte := byte.toNat_lt
    have hlow : ofNat (byte.toNat + 256 * ofLittleEndian bytes) = byte := by
      apply UInt8.toNat_inj.mp
      rw [UInt8.toNat_ofNat']
      omega
    have hhg : (byte.toNat + 256 * ofLittleEndian bytes) / 256 = ofLittleEndian bytes := by omega
    rw [ofLittleEndian, length_cons, littleEndian, hlow, hhg, ih]

/-- How values of a type lie in memory: each list of that many bytes is one value. -/
structure Layout (α : Type) where
  size : Nat
  write : α → List UInt8
  read : List UInt8 → α
  length_write : ∀ a, (write a).length = size
  read_write : ∀ a, read (write a) = a
  write_read : ∀ bytes, bytes.length = size → write (read bytes) = bytes

namespace Layout

/-- A number in some bytes, the lowest one first. -/
def word (k : Nat) (toNat : α → Nat) (ofNat : Nat → α) (toNat_lt : ∀ a, toNat a < 256 ^ k)
    (ofNat_toNat : ∀ a, ofNat (toNat a) = a) (toNat_ofNat : ∀ n < 256 ^ k, toNat (ofNat n) = n) : Layout α where
  size := k
  write a := littleEndian k (toNat a)
  read bytes := ofNat (ofLittleEndian bytes)
  length_write a := length_littleEndian k (toNat a)
  read_write a := by rw [ofLittleEndian_littleEndian, mod_eq_of_lt (toNat_lt a), ofNat_toNat]
  write_read bytes h := by
    subst h
    rw [toNat_ofNat _ (ofLittleEndian_lt bytes), littleEndian_ofLittleEndian]

def uint8 : Layout UInt8 :=
  word 1 toNat ofNat (fun a => a.toNat_lt) (fun _ => UInt8.ofNat_toNat) fun _ h => toNat_ofNat_of_lt' h

def uint16 : Layout UInt16 :=
  word 2 UInt16.toNat UInt16.ofNat (fun a => a.toNat_lt) (fun _ => UInt16.ofNat_toNat)
    fun _ h => UInt16.toNat_ofNat_of_lt' h

def uint32 : Layout UInt32 :=
  word 4 UInt32.toNat UInt32.ofNat (fun a => a.toNat_lt) (fun _ => UInt32.ofNat_toNat)
    fun _ h => UInt32.toNat_ofNat_of_lt' h

def uint64 : Layout UInt64 :=
  word 8 UInt64.toNat UInt64.ofNat (fun a => a.toNat_lt) (fun _ => UInt64.ofNat_toNat)
    fun _ h => UInt64.toNat_ofNat_of_lt' h

def map (l : Layout α) (e : α ≃ β) : Layout β where
  size := l.size
  write b := l.write (e.symm b)
  read bytes := e (l.read bytes)
  length_write b := l.length_write (e.symm b)
  read_write b := by rw [l.read_write, e.apply_symm_apply]
  write_read bytes h := by rw [e.symm_apply_apply, l.write_read bytes h]

def int32 : Layout Int32 :=
  uint32.map ⟨UInt32.toInt32, Int32.toUInt32, UInt32.toUInt32_toInt32, Int32.toInt32_toUInt32⟩

def int64 : Layout Int64 :=
  uint64.map ⟨UInt64.toInt64, Int64.toUInt64, UInt64.toUInt64_toInt64, Int64.toInt64_toUInt64⟩

def pair (l : Layout α) (m : Layout β) : Layout (α × β) where
  size := l.size + m.size
  write x := l.write x.1 ++ m.write x.2
  read bytes := (l.read (bytes.take l.size), m.read (bytes.drop l.size))
  length_write x := by rw [length_append, l.length_write, m.length_write]
  read_write x := by
    rw [take_left' (l.length_write x.1), drop_left' (l.length_write x.1), l.read_write, m.read_write]
  write_read bytes h := by
    have hl : (bytes.take l.size).length = l.size := by
      rw [length_take]
      omega
    have hm : (bytes.drop l.size).length = m.size := by
      rw [length_drop]
      omega
    rw [l.write_read _ hl, m.write_read _ hm, take_append_drop]

def array (l : Layout α) : (n : Nat) → Layout (Fin n → α)
  | 0 =>
    { size := 0
      write := fun _ => []
      read := fun _ => Fin.elim0
      length_write := fun _ => rfl
      read_write := fun _ => funext fun i => i.elim0
      write_read := fun _ h => (eq_nil_of_length_eq_zero h).symm }
  | n + 1 => (l.pair (l.array n)).map (Fin.consEquiv fun _ => α)

end Layout

end SelfQuant
