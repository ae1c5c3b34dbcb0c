import Mathlib.Data.List.Basic

/-!
# Texts in the order of their bytes

Texts are compared character by character. The bytes that write them in UTF-8 compare in the same
way: of two characters the lesser has the lesser bytes, whatever follows either of them.
-/

namespace DenseBench.Text

def bytes (s : String) : List UInt8 :=
  s.toUTF8.data.toList

/-- The bytes of a code point, as numbers: a marked one, and behind it as many as are asked for, of
six bits each. -/
def byteRun (marker : Nat) : Nat → Nat → List Nat
  | 0, v => [v + marker]
  | more + 1, v => byteRun marker more (v / 64) ++ [v % 64 + 0x80]

theorem byteRun_append_lt {marker more v w : Nat} (h : v < w) (as bs : List Nat) :
    byteRun marker more v ++ as < byteRun marker more w ++ bs := by
  induction more generalizing v w as bs with
  | zero => exact List.cons_lt_cons_iff.mpr (.inl (Nat.add_lt_add_right h marker))
  | succ more ih =>
    rw [byteRun, byteRun, List.append_assoc, List.append_assoc]
    have hle : v / 64 ≤ w / 64 := Nat.div_le_div_right (Nat.le_of_lt h)
    rcases Nat.lt_or_eq_of_le hle with hlt | heq
    · exact ih hlt _ _
    · rw [heq]
      exact List.append_left_lt (List.cons_lt_cons_iff.mpr (.inl (by omega)))

def codeBytes (v : Nat) : List Nat :=
  if v ≤ 0x7f then byteRun 0 0 v
  else if v ≤ 0x7ff then byteRun 0xc0 1 v
  else if v ≤ 0xffff then byteRun 0xe0 2 v
  else byteRun 0xf0 3 v

theorem codeBytes_ne_nil (v : Nat) : codeBytes v ≠ [] := by
  unfold codeBytes
  split_ifs <;> simp [byteRun]

theorem codeBytes_append_lt {v w : Nat} (h : v < w) (as bs : List Nat) :
    codeBytes v ++ as < codeBytes w ++ bs := by
  unfold codeBytes
  split_ifs
  -- Runs of one length compare as their code points do, and a longer run has the greater marker.
  all_goals try omega
  all_goals first
    | exact byteRun_append_lt h as bs
    | exact List.cons_lt_cons_iff.mpr (.inl (by omega))

theorem map_toNat_utf8EncodeChar (c : Char) :
    (String.utf8EncodeChar c).map UInt8.toNat = codeBytes c.toNat := by
  have hc : c.toNat < 0x110000 := by
    rcases c.valid with h | h
    · exact Nat.lt_trans h (by decide)
    · exact h.2
  unfold String.utf8EncodeChar codeBytes
  simp only [Char.toNat_val]
  split_ifs
  all_goals
    simp [byteRun]
    omega

def textBytes (cs : List Char) : List Nat :=
  cs.flatMap fun c => codeBytes c.toNat

theorem map_toNat_bytes (s : String) : (bytes s).map UInt8.toNat = textBytes s.toList := by
  have hbytes : bytes s = s.toList.flatMap String.utf8EncodeChar := by
    rw [bytes, String.toUTF8_eq_toByteArray, ← String.utf8Encode_toList, List.utf8Encode,
      List.data_toByteArray]
  rw [hbytes, List.map_flatMap]
  simp only [map_toNat_utf8EncodeChar]
  rfl

theorem textBytes_lt {cs ds : List Char} (h : cs < ds) : textBytes cs < textBytes ds := by
  induction h with
  | nil =>
    rename_i d ds
    obtain ⟨b, bs, hbs⟩ := List.exists_cons_of_ne_nil (codeBytes_ne_nil d.toNat)
    rw [textBytes, textBytes, List.flatMap_cons, hbs]
    exact List.nil_lt_cons b _
  | rel hlt => exact codeBytes_append_lt hlt _ _
  | cons hrest ih => exact List.append_left_lt ih

theorem lt_of_map_toNat_lt {xs ys : List UInt8} (h : xs.map UInt8.toNat < ys.map UInt8.toNat) :
    xs < ys := by
  induction xs generalizing ys with
  | nil =>
    cases ys with
    | nil => exact absurd h (List.lt_irrefl _)
    | cons y ys => exact List.nil_lt_cons y ys
  | cons x xs ih =>
    cases ys with
    | nil => cases h
    | cons y ys =>
      rcases List.cons_lt_cons_iff.mp h with hlt | ⟨heq, hrest⟩
      · exact List.cons_lt_cons_iff.mpr (.inl hlt)
      · exact List.cons_lt_cons_iff.mpr (.inr ⟨UInt8.toNat_inj.mp heq, ih hrest⟩)

/-- The lesser text has the lesser bytes. -/
theorem bytes_lt_bytes {s t : String} (h : s < t) : bytes s < bytes t := by
  apply lt_of_map_toNat_lt
  rw [map_toNat_bytes, map_toNat_bytes]
  exact textBytes_lt h

end DenseBench.Text
