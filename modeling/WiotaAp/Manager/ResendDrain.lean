import WiotaAp.Manager.Update

/-!
# The flags as a set of chunks

The flags of the chunks that are to be resent are a finite set of chunk numbers.  A request adds a
row of them, and `manager_resend_data` takes the smallest one out, again and again, until there is
none.

`drainFlags_eq` says what a number of rounds takes out, and `resend_flags_drain` puts the operations
on the set together.
-/

namespace WiotaAp

open Buffers

/-- The search for a flag and its removal in `manager_resend_data`: the chunk and the flags behind
it, if there is a chunk. -/
def getThenClean (flag : List UInt8) (flagNum : ℤ) : Except Fault (Option (ℕ × List UInt8)) := do
  let loc ← managerGetResendSubFlag flag flagNum
  if loc < 0 then return none
  else
    let flag ← managerCleanResendSubFlag flag loc.toNat
    return some (loc.toNat, flag)

/-- At most `rounds` searches and removals: the chunks in the order in which they are taken out, and
the flags that are left. -/
def drainFlags (flagNum : ℤ) : ℕ → List UInt8 → Except Fault (List ℕ × List UInt8)
  | 0, flag => .ok ([], flag)
  | rounds + 1, flag => do
    match ← getThenClean flag flagNum with
    | none => return ([], flag)
    | some (loc, flag) =>
      let (locs, flag) ← drainFlags flagNum rounds flag
      return (loc :: locs, flag)

/-! ### The operations on the set -/

/-- Setting the flags of a range adds a row of chunks, if it is in the bitmap. -/
lemma exists_managerSetResendSubFlag {flag : List UInt8} {offset len : Int32}
    (hoffset : 0 ≤ offset.toInt) (hlen : 0 ≤ len.toInt)
    (hrow : ∀ k ∈ Finset.Ico (offset.toInt / 512).toNat
      ((offset.toInt / 512).toNat + (len.toInt / 512).toNat), k < 8 * flag.length) :
    ∃ flag', managerSetResendSubFlag flag offset.toInt len.toInt managerOtaSendBinSize =
        .ok flag' ∧ flag'.length = flag.length ∧
      bitSet flag' = bitSet flag ∪ Finset.Ico (offset.toInt / 512).toNat
        ((offset.toInt / 512).toNat + (len.toInt / 512).toNat) := by
  have hstart : (offset.toInt / 512).toNat = offset.toInt / 512 := Int.toNat_of_nonneg (by omega)
  have hrounds : countDownRounds (len.toInt / 512) = (len.toInt / 512).toNat := by
    have hlt := Int32.toInt_lt len
    unfold countDownRounds
    omega
  have hcall : managerSetResendSubFlag flag offset.toInt len.toInt managerOtaSendBinSize =
      orBits flag (offset.toInt / 512).toNat (len.toInt / 512).toNat := by
    unfold managerSetResendSubFlag managerOtaSendBinSize
    rw [Int.tdiv_eq_ediv_of_nonneg hoffset, Int.tdiv_eq_ediv_of_nonneg hlen, hrounds, ← hstart,
      setFlagLoop_eq_orBits, Int.toNat_natCast]
  rw [hcall]
  rcases orBits_cases flag (offset.toInt / 512).toNat (len.toInt / 512).toNat with
    ⟨-, flag', hors, hlength, hbits⟩ | ⟨hne, hout, -⟩
  · refine ⟨flag', hors, hlength, ?_⟩
    ext k
    rw [Finset.mem_union, mem_bitSet, mem_bitSet, Finset.mem_Ico, hbits, Bool.or_eq_true,
      decide_eq_true_eq]
  · -- the last chunk of the row is not in the bitmap
    have hlast := hrow ((offset.toInt / 512).toNat + (len.toInt / 512).toNat - 1)
      (Finset.mem_Ico.mpr (by omega))
    omega

/-- The search gives the smallest member, or -2 if there is none. -/
lemma managerGetResendSubFlag_set (flag : List UInt8) :
    (managerGetResendSubFlag flag flag.length = .ok (-2) ∧ bitSet flag = ∅) ∨
    ∃ k ∈ bitSet flag, managerGetResendSubFlag flag flag.length = .ok (k : ℤ) ∧
      ∀ j ∈ bitSet flag, k ≤ j := by
  have hnum : (flag.length : ℤ).toNat ≤ flag.length := le_rfl
  rcases managerGetResendSubFlag_cases hnum with ⟨hget, hnone⟩ | ⟨k, hget, -, hbit, hfirst⟩
  · refine .inl ⟨hget, Finset.eq_empty_iff_forall_notMem.mpr fun k hk => ?_⟩
    have hbit := mem_bitSet.mp hk
    exact Bool.false_ne_true ((hnone k (lt_of_bitAt hbit)).symm.trans hbit)
  · refine .inr ⟨k, mem_bitSet.mpr hbit, hget, fun j hj => ?_⟩
    by_contra hlt
    exact Bool.false_ne_true ((hfirst j (Nat.lt_of_not_le hlt)).symm.trans (mem_bitSet.mp hj))

/-- Clearing a flag takes out one member. -/
lemma exists_managerCleanResendSubFlag {flag : List UInt8} {k : ℕ} (hk : k < 8 * flag.length) :
    ∃ flag', managerCleanResendSubFlag flag k = .ok flag' ∧ flag'.length = flag.length ∧
      bitSet flag' = (bitSet flag).erase k := by
  obtain ⟨flag', hclear, hlength, hbits⟩ := exists_clearBit hk
  refine ⟨flag', hclear, hlength, ?_⟩
  ext j
  rw [Finset.mem_erase, mem_bitSet, mem_bitSet, hbits, Bool.and_eq_true, Bool.not_eq_true',
    decide_eq_false_iff_not]
  exact and_comm

/-! ### Taking the chunks out -/

/-- A search and a removal: there is no member, or the smallest one is taken out. -/
lemma getThenClean_cases (flag : List UInt8) :
    (getThenClean flag flag.length = .ok none ∧ bitSet flag = ∅) ∨
    ∃ k flag', getThenClean flag flag.length = .ok (some (k, flag')) ∧
      flag'.length = flag.length ∧ bitSet flag' = (bitSet flag).erase k ∧
      (bitSet flag).sort = k :: (bitSet flag').sort := by
  rcases managerGetResendSubFlag_set flag with ⟨hget, hempty⟩ | ⟨k, hk, hget, hle⟩
  · refine .inl ⟨?_, hempty⟩
    rw [getThenClean, hget]
    rfl
  · obtain ⟨flag', hclean, hlength, hset⟩ :=
      exists_managerCleanResendSubFlag (lt_of_bitAt (mem_bitSet.mp hk))
    refine .inr ⟨k, flag', ?_, hlength, hset, ?_⟩
    · have hpos : ¬ (k : ℤ) < 0 := Int.not_lt.mpr (Int.natCast_nonneg k)
      rw [getThenClean, hget]
      simp only [ok_bind, if_neg hpos, Int.toNat_natCast, hclean]
      rfl
    · have hinsert := Finset.sort_insert (· ≤ ·) (s := (bitSet flag).erase k) (a := k)
        (fun j hj => hle j (Finset.mem_of_mem_erase hj)) (Finset.notMem_erase k _)
      rw [Finset.insert_erase hk] at hinsert
      rw [hset, hinsert]

/-- A number of rounds takes out as many members, in increasing order, and leaves the others. -/
lemma drainFlags_eq (rounds : ℕ) (flag : List UInt8) :
    ∃ flag', drainFlags flag.length rounds flag = .ok ((bitSet flag).sort.take rounds, flag') ∧
      flag'.length = flag.length ∧ bitSet flag' = ((bitSet flag).sort.drop rounds).toFinset := by
  induction rounds generalizing flag with
  | zero =>
    refine ⟨flag, rfl, rfl, ?_⟩
    rw [List.drop_zero, Finset.sort_toFinset]
  | succ rounds ih =>
    rcases getThenClean_cases flag with ⟨hstep, hempty⟩ | ⟨k, flag', hstep, hlength, -, hsort⟩
    · refine ⟨flag, ?_, rfl, ?_⟩
      · rw [drainFlags, hstep, hempty, Finset.sort_empty]
        rfl
      · rw [hempty, Finset.sort_empty]
        rfl
    · obtain ⟨flag'', hdrain, hlength', hset⟩ := ih flag'
      rw [hlength] at hdrain
      refine ⟨flag'', ?_, hlength'.trans hlength, ?_⟩
      · rw [drainFlags, hstep, hsort]
        simp only [ok_bind, hdrain]
        rfl
      · rw [hset, hsort, List.drop_succ_cons]

example : drainFlags 1 3 [0x22] = .ok ([1, 5], [0]) := by decide

/-- `manager_resend_data` takes out what a search and a removal take out. -/
lemma managerResendData_getThenClean {env : UpdateEnv} {u u' : ManagerUpdate}
    {operations : List OperationData} (h : managerResendData env u = .ok (u', operations)) :
    (getThenClean u.remSubFlag u.subFlagNum = .ok none ∧ u' = u) ∨
      ∃ loc, getThenClean u.remSubFlag u.subFlagNum = .ok (some (loc, u'.remSubFlag)) := by
  rcases managerResendData_cases h with
    ⟨loc, hneg, hget, rfl, -⟩ | ⟨loc, flag, len, hpos, hget, hclean, -, rfl, -⟩
  · refine .inl ⟨?_, rfl⟩
    rw [getThenClean, hget]
    simp only [ok_bind, if_pos hneg]
    rfl
  · refine .inr ⟨loc.toNat, ?_⟩
    rw [getThenClean, hget]
    simp only [ok_bind, if_neg (Int.not_lt.mpr hpos), hclean]
    rfl

/-- The flags are a set of chunks: a range adds the row of its chunks and no others, the search
gives the smallest member, or a negative code exactly if there is none, and clearing takes out one
member.  Searching and clearing, as `manager_resend_data` does, takes out every member once and in
increasing order, and when all are out all bytes are zero. -/
theorem resend_flags_drain (flag : List UInt8) :
    (∀ offset len : Int32, 0 ≤ offset.toInt → 0 ≤ len.toInt →
      (∀ k ∈ Finset.Ico (offset.toInt / 512).toNat
        ((offset.toInt / 512).toNat + (len.toInt / 512).toNat), k < 8 * flag.length) →
      ∃ flag', managerSetResendSubFlag flag offset.toInt len.toInt managerOtaSendBinSize =
          .ok flag' ∧ flag'.length = flag.length ∧
        bitSet flag' = bitSet flag ∪ Finset.Ico (offset.toInt / 512).toNat
          ((offset.toInt / 512).toNat + (len.toInt / 512).toNat)) ∧
    (∃ loc : ℤ, managerGetResendSubFlag flag flag.length = .ok loc ∧
      (loc < 0 ↔ bitSet flag = ∅) ∧
      (0 ≤ loc → loc.toNat ∈ bitSet flag ∧ ∀ k ∈ bitSet flag, loc.toNat ≤ k)) ∧
    (∀ k < 8 * flag.length, ∃ flag', managerCleanResendSubFlag flag k = .ok flag' ∧
      flag'.length = flag.length ∧ bitSet flag' = (bitSet flag).erase k) ∧
    (∀ rounds, ∃ flag', drainFlags flag.length rounds flag =
        .ok ((bitSet flag).sort.take rounds, flag') ∧
      bitSet flag' = ((bitSet flag).sort.drop rounds).toFinset ∧
      ((bitSet flag).card ≤ rounds ↔ flag' = List.replicate flag.length 0)) ∧
    ∀ env u u' operations, managerResendData env u = .ok (u', operations) →
      (getThenClean u.remSubFlag u.subFlagNum = .ok none ∧ u' = u) ∨
        ∃ loc, getThenClean u.remSubFlag u.subFlagNum = .ok (some (loc, u'.remSubFlag)) := by
  refine ⟨fun offset len hoffset hlen hrow => ?_, ?_, fun k hk => ?_, fun rounds => ?_,
    fun env u u' operations h => managerResendData_getThenClean h⟩
  · exact exists_managerSetResendSubFlag hoffset hlen hrow
  · rcases managerGetResendSubFlag_set flag with ⟨hget, hempty⟩ | ⟨k, hk, hget, hle⟩
    · exact ⟨-2, hget, iff_of_true (by decide) hempty, fun hpos => absurd hpos (by decide)⟩
    · refine ⟨k, hget, ?_, fun _ => ⟨hk, hle⟩⟩
      exact iff_of_false (Int.not_lt.mpr (Int.natCast_nonneg k)) (Finset.ne_empty_of_mem hk)
  · exact exists_managerCleanResendSubFlag hk
  · obtain ⟨flag', hdrain, hlength, hset⟩ := drainFlags_eq rounds flag
    refine ⟨flag', hdrain, hset, ?_⟩
    have hempty : (bitSet flag).card ≤ rounds ↔ bitSet flag' = ∅ := by
      rw [hset, List.toFinset_eq_empty_iff, List.drop_eq_nil_iff, Finset.length_sort]
    rw [hempty, ← hlength, bitSet_eq_empty_iff]

end WiotaAp
