import DenseBench.Proofs.Elimination.Buffer

/-!
# What factoring returns

On a square array the packed rows decide both factors, and a stop decides the fault. The engine
plays no part in either.
-/

namespace DenseBench

open NDArray Elimination

variable {α : Type} [Scalar α] {n : Nat}

namespace Elimination

/-- The array of a factor that is given entry by entry. -/
def factor (dtype : ElementType) (entry : Fin n → Fin n → α) : NDArray α :=
  ⟨[n, n], dtype, (bufferOf n entry).map (Scalar.coerce dtype)⟩

theorem matrix_factor (hfits : n * n < wordLimit) (dtype : ElementType)
    (entry : Fin n → Fin n → α) (i j : Fin n) :
    (factor dtype entry).matrix n i j = Scalar.coerce dtype (entry i j) := by
  rw [matrix_apply rfl hfits, factor, Array.getD_eq_getD_getElem?, Array.getElem?_map,
    getElem?_bufferOf]
  rfl

theorem ofData_bufferOf (hfits : n * n < wordLimit) (dtype : ElementType)
    (entry : Fin n → Fin n → α) :
    ofData [n, n] dtype (bufferOf n entry) = .ok (factor dtype entry) := by
  rw [ofData_eq_ok_iff]
  exact ⟨by rw [elementCount_square hfits, size_bufferOf], rfl⟩

end Elimination

namespace Engine

/-- The rows of a buffer are packed, or the elimination stops. -/
theorem packedFactors_cases (engine : Engine) (n : Nat) (data : Array α) :
    (∃ packed : Vector (Vector α n) n, Packs 0 (rowsOf n data) packed.toList ∧
      packedFactors engine.sweep data = .ok packed) ∨
    ∃ i, Stops 0 (rowsOf n data) i ∧
      packedFactors (n := n) engine.sweep data = .error (.singularPivot i) := by
  rw [sweep_eq_downward]
  unfold packedFactors
  rcases reduceRows_downward 0 (rowsOf n data) (by simp [rowsOf]) with
    ⟨out, hout, hpacks⟩ | ⟨i, hi, hstops⟩
  · simp only [hout]
    exact .inl ⟨_, by simpa using hpacks, rfl⟩
  · simp only [hi]
    exact .inr ⟨i, hstops, rfl⟩

theorem lu_of_packedFactors_ok {engine : Engine} {a : NDArray α} (hshape : a.shape = [n, n])
    (hfits : n * n < wordLimit) {packed : Vector (Vector α n) n}
    (h : packedFactors engine.sweep a.data = .ok packed) :
    engine.lu a = .ok (factor (factorType a.dtype) (lowerEntry packed),
      factor (factorType a.dtype) (upperEntry packed)) := by
  simp only [lu, squareDim_eq_ok_iff.mpr hshape, h, ofData_bufferOf hfits]

theorem lu_of_packedFactors_error {engine : Engine} {a : NDArray α} (hshape : a.shape = [n, n])
    {e : Error} (h : packedFactors (n := n) engine.sweep a.data = .error e) :
    engine.lu a = .error e := by
  simp only [lu, squareDim_eq_ok_iff.mpr hshape, h]

/-- Factoring a square array of a size that can be counted either packs its rows or stops. -/
theorem lu_square (engine : Engine) {a : NDArray α} (hshape : a.shape = [n, n])
    (hfits : n * n < wordLimit) :
    (∃ packed : Vector (Vector α n) n, Packs 0 (rowsOf n a.data) packed.toList ∧
      engine.lu a = .ok (factor (factorType a.dtype) (lowerEntry packed),
        factor (factorType a.dtype) (upperEntry packed))) ∨
    ∃ i, Stops 0 (rowsOf n a.data) i ∧ engine.lu a = .error (.singularPivot i) := by
  rcases packedFactors_cases engine n a.data with ⟨packed, hpacks, hok⟩ | ⟨i, hstops, herror⟩
  · exact .inl ⟨packed, hpacks, lu_of_packedFactors_ok hshape hfits hok⟩
  · exact .inr ⟨i, hstops, lu_of_packedFactors_error hshape herror⟩

/-- Both factors returned are built from their buffers. -/
theorem ofData_of_lu_eq_ok {engine : Engine} {a l u : NDArray α} (h : engine.lu a = .ok (l, u)) :
    ∃ (n : Nat) (packed : Vector (Vector α n) n), a.squareDim = .ok n ∧
      ofData [n, n] (factorType a.dtype) (bufferOf n (lowerEntry packed)) = .ok l ∧
      ofData [n, n] (factorType a.dtype) (bufferOf n (upperEntry packed)) = .ok u := by
  unfold lu at h
  split at h
  · cases h
  · rename_i n hdim
    split at h
    · cases h
    · rename_i packed hpacked
      dsimp only at h
      split at h
      · rename_i lower upper hlower hupper
        cases h
        exact ⟨n, packed, hdim, hlower, hupper⟩
      · cases h
      · cases h

theorem square_lt_of_lu_eq_ok {engine : Engine} {a l u : NDArray α} (hshape : a.shape = [n, n])
    (h : engine.lu a = .ok (l, u)) : n * n < wordLimit := by
  obtain ⟨m, packed, hdim, hlower, -⟩ := ofData_of_lu_eq_ok h
  obtain rfl : m = n := by simpa [squareDim_eq_ok_iff.mpr hshape] using hdim.symm
  have hcount := (ofData_eq_ok_iff.mp hlower).1
  rw [size_bufferOf] at hcount
  exact lt_wordLimit_of_elementCount hcount

/-- The factors returned are those of packed rows. -/
theorem packs_of_lu_eq_ok {engine : Engine} {a l u : NDArray α} (hshape : a.shape = [n, n])
    (h : engine.lu a = .ok (l, u)) :
    ∃ packed : Vector (Vector α n) n, Packs 0 (rowsOf n a.data) packed.toList ∧
      l = factor (factorType a.dtype) (lowerEntry packed) ∧
      u = factor (factorType a.dtype) (upperEntry packed) := by
  rcases lu_square engine hshape (square_lt_of_lu_eq_ok hshape h) with
    ⟨packed, hpacks, hok⟩ | ⟨i, _, herror⟩
  · rw [hok] at h
    cases h
    exact ⟨packed, hpacks, rfl, rfl⟩
  · rw [herror] at h
    cases h

end Engine

end DenseBench
