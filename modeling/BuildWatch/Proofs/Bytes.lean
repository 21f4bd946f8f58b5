import Mathlib.Tactic.Basic

/-!
Byte arrays through their lists of bytes.
-/

namespace BuildWatch.Bytes

theorem get!_eq {bytes : ByteArray} {index : Nat} (hIndex : index < bytes.data.toList.length) :
    bytes.get! index = bytes.data.toList[index] :=
  getElem!_pos bytes.data index hIndex

theorem toListLoop_eq (bytes : ByteArray) (index : Nat) (done : List UInt8) :
    ByteArray.toList.loop bytes index done = done.reverse ++ bytes.data.toList.drop index := by
  fun_induction ByteArray.toList.loop bytes index done with
  | case1 index done hIndex ih =>
      have hInside : index < bytes.data.toList.length := hIndex
      rw [ih, List.drop_eq_getElem_cons hInside, get!_eq hInside]
      simp
  | case2 index done hIndex =>
      have hOutside : bytes.data.toList.length ≤ index := Nat.le_of_not_lt hIndex
      rw [List.drop_eq_nil_of_le hOutside, List.append_nil]

theorem toList_eq (bytes : ByteArray) : bytes.toList = bytes.data.toList := by
  rw [ByteArray.toList, toListLoop_eq, List.reverse_nil, List.nil_append, List.drop_zero]

theorem toList_inj {bytes other : ByteArray} : bytes.toList = other.toList ↔ bytes = other := by
  rw [toList_eq, toList_eq, Array.toList_inj, ByteArray.ext_iff]

theorem toList_mk (bytes : List UInt8) : (ByteArray.mk bytes.toArray).toList = bytes :=
  toList_eq _

theorem size_mk (bytes : List UInt8) : (ByteArray.mk bytes.toArray).size = bytes.length :=
  List.size_toArray

theorem toNat_ofNat_of_lt {value : Nat} (hValue : value < 256) :
    (UInt8.ofNat value).toNat = value := by
  rw [UInt8.toNat_ofNat', Nat.mod_eq_of_lt hValue]

theorem foldlLoop_eq {α : Type} (step : α → UInt8 → α) (bytes : ByteArray) (count index : Nat)
    (value : α) (hCount : index + count = bytes.size) :
    Id.run (ByteArray.foldlM.loop (fun value byte => pure (step value byte)) bytes bytes.size
      (Nat.le_refl _) count index value) = (bytes.data.toList.drop index).foldl step value := by
  induction count generalizing index value with
  | zero =>
      have hOutside : bytes.data.toList.length ≤ index := Nat.le_of_eq hCount.symm
      rw [ByteArray.foldlM.loop, List.drop_eq_nil_of_le hOutside]
      split
      · rfl
      · rfl
  | succ count ih =>
      have hInside : index < bytes.data.toList.length := by
        have hSize : bytes.data.toList.length = bytes.size := rfl
        omega
      rw [ByteArray.foldlM.loop, dif_pos (show index < bytes.size from hInside),
        List.drop_eq_getElem_cons hInside, List.foldl_cons]
      exact ih (index + 1) _ (by omega)

theorem foldl_eq {α : Type} (step : α → UInt8 → α) (init : α) (bytes : ByteArray) :
    bytes.foldl step init = bytes.data.toList.foldl step init := by
  rw [ByteArray.foldl, ByteArray.foldlM, dif_pos (Nat.le_refl _)]
  exact foldlLoop_eq step bytes (bytes.size - 0) 0 init (by omega)

end BuildWatch.Bytes
