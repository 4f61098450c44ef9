import RtpPacket.Codec.NalUnits

/-!
# Annex-B access units

Units behind start codes of three or four bytes. A unit without a start code or
three zeros in it, and without a zero at its end, is read back exactly, since no
start code can be seen that begins inside it.
-/

namespace RtpPacket.Codec

open ByteCodec

set_option autoImplicit false

def startCode (long : Bool) : Bytes := if long then [0, 0, 0, 1] else [0, 0, 1]

/-- Each unit behind a start code of its own length. -/
def annexB : List (Bool × Bytes) → Bytes
  | [] => []
  | (long, nalu) :: rest => startCode long ++ (nalu ++ annexB rest)

def joinAnnexB (nalus : List Bytes) : Bytes := nalus.flatMap ([0, 0, 0, 1] ++ ·)

/-- A unit that start codes can delimit. -/
structure Separable (nalu : Bytes) : Prop where
  nonempty : nalu ≠ []
  no_start_code : ¬ [0, 0, 1] <:+: nalu
  no_zeros : ¬ [0, 0, 0] <:+: nalu
  end_nonzero : nalu.getLast? ≠ some 0

theorem start_code_length_start_code (long : Bool) {nalu : Bytes} (nonempty : nalu ≠ [])
    (rest : Bytes) :
    startCodeLength (startCode long ++ (nalu ++ rest)) = (startCode long).length := by
  obtain ⟨byte, tail, rfl⟩ := List.exists_cons_of_ne_nil nonempty
  cases long <;> simp [startCode, startCodeLength]

theorem start_code_positive (long : Bool) : 0 < (startCode long).length := by
  cases long <;> simp [startCode]

theorem start_code_prefix {bytes : Bytes} (code : 0 < startCodeLength bytes) :
    ∃ byte, (byte = 0 ∨ byte = 1) ∧ [0, 0, byte] <+: bytes := by
  unfold startCodeLength at code
  split at code
  · next b0 b1 b2 b3 rest =>
      have prefixed (zeros : b0 = 0 ∧ b1 = 0) : [0, 0, b2] <+: b0 :: b1 :: b2 :: b3 :: rest := by
        rw [zeros.1, zeros.2]
        exact ⟨b3 :: rest, rfl⟩
      split_ifs at code with zeros one zero
      · exact ⟨b2, .inr one, prefixed zeros⟩
      · exact ⟨b2, .inl zero.1, prefixed zeros⟩
      · omega
      · omega
  · omega

/-- No start code is seen inside a unit, not even one that would run past its end. -/
theorem start_code_length_inside {done remaining : Bytes}
    (separable : Separable (done ++ remaining))
    (inside : remaining ≠ []) (suffix : Bytes) :
    startCodeLength (remaining ++ suffix) = 0 := by
  by_contra code
  obtain ⟨byte, value, found⟩ := start_code_prefix (Nat.pos_of_ne_zero code)
  have reach := List.prefix_append remaining suffix
  by_cases long : 3 ≤ remaining.length
  · have within : [0, 0, byte] <+: remaining := List.prefix_of_prefix_length_le found reach long
    have contained : [0, 0, byte] <:+: done ++ remaining :=
      within.isInfix.trans (List.suffix_append done remaining).isInfix
    cases value with
    | inl zero => exact separable.no_zeros (zero ▸ contained)
    | inr one => exact separable.no_start_code (one ▸ contained)
  · -- One or two bytes of the unit are left, and both would be zero.
    have within : remaining <+: [0, 0, byte] :=
      List.prefix_of_prefix_length_le reach found (by simp; omega)
    have zeros : remaining.getLast? = some 0 := by
      have positive := List.length_pos_iff.mpr inside
      rw [List.prefix_iff_eq_take.mp within]
      have length : remaining.length = 1 ∨ remaining.length = 2 := by omega
      cases length with
      | inl one => rw [one]; rfl
      | inr two => rw [two]; rfl
    have last : (done ++ remaining).getLast? = some 0 := by
      rw [List.getLast?_append, zeros]
      rfl
    exact separable.end_nonzero last

/-- What may follow a unit: nothing, or a start code with a unit behind it. -/
theorem nalus_from_unit {done remaining suffix : Bytes} (separable : Separable (done ++ remaining))
    (long : suffix = [] ∨ 3 < suffix.length) :
    nalusFrom done (remaining ++ suffix) =
      if suffix = [] then [done ++ remaining] else nalusFrom (done ++ remaining) suffix := by
  induction remaining generalizing done with
  | nil =>
      rw [List.append_nil] at separable ⊢
      by_cases nothing : suffix = []
      · rw [nothing, if_pos rfl, List.nil_append, nalusFrom]
        simp [separable.nonempty]
      · rw [if_neg nothing, List.nil_append]
  | cons byte rest ih =>
      have grouped : done ++ byte :: rest = done ++ [byte] ++ rest := by simp
      have noCode := start_code_length_inside separable (by simp) suffix
      rw [List.cons_append] at noCode ⊢
      by_cases short : (rest ++ suffix).length < 3
      · have nothing : suffix = [] := by
          rw [List.length_append] at short
          cases long with
          | inl none => exact none
          | inr more => omega
        rw [nalusFrom, if_pos short, if_pos nothing, nothing, List.append_nil]
      · rw [nalusFrom, if_neg short, if_neg (by omega), grouped]
        exact ih (grouped ▸ separable)

theorem annex_b_long {entries : List (Bool × Bytes)}
    (nonempty : ∀ entry ∈ entries, entry.2 ≠ []) :
    annexB entries = [] ∨ 3 < (annexB entries).length := by
  cases entries with
  | nil => exact .inl rfl
  | cons entry rest =>
      obtain ⟨long, nalu⟩ := entry
      have positive : 0 < nalu.length :=
        List.length_pos_iff.mpr (nonempty (long, nalu) List.mem_cons_self)
      have code : 3 ≤ (startCode long).length := by
        cases long <;> simp [startCode]
      right
      rw [annexB, List.length_append, List.length_append]
      omega

theorem nalus_from_annex_b {nalu : Bytes} {entries : List (Bool × Bytes)}
    (first : Separable nalu) (separable : ∀ entry ∈ entries, Separable entry.2) :
    nalusFrom [] (nalu ++ annexB entries) = nalu :: entries.map Prod.snd := by
  have long := annex_b_long fun entry member => (separable entry member).nonempty
  have unit : nalusFrom [] (nalu ++ annexB entries) =
      if annexB entries = [] then [nalu] else nalusFrom nalu (annexB entries) :=
    nalus_from_unit (show Separable ([] ++ nalu) from first) long
  induction entries generalizing nalu with
  | nil =>
      rw [unit]
      rfl
  | cons entry rest ih =>
      obtain ⟨code, next⟩ := entry
      have nextSeparable := separable (code, next) List.mem_cons_self
      have restSeparable : ∀ entry ∈ rest, Separable entry.2 :=
        fun entry member => separable entry (List.mem_cons_of_mem _ member)
      have restLong := annex_b_long fun entry member => (restSeparable entry member).nonempty
      have length := start_code_length_start_code code nextSeparable.nonempty (annexB rest)
      have positive := start_code_positive code
      have later := ih nextSeparable restSeparable restLong
        (nalus_from_unit (show Separable ([] ++ next) from nextSeparable) restLong)
      have some : annexB ((code, next) :: rest) ≠ [] := by
        rw [annexB]
        simp [List.length_pos_iff.mp positive]
      have notEmpty : nalu.isEmpty = false := by simpa using first.nonempty
      rw [unit, if_neg some, annexB, nalus_from_code nalu (length ▸ positive), length,
        List.drop_left, later,
        notEmpty]
      rfl

/-- Start codes of either length, in any mix, are told from the units between them. -/
theorem split_annex_b {entries : List (Bool × Bytes)}
    (separable : ∀ entry ∈ entries, Separable entry.2) (some : entries ≠ []) :
    startsWithStartCode (annexB entries) = true ∧
      splitAnnexB (annexB entries) = entries.map Prod.snd := by
  cases entries with
  | nil => exact absurd rfl some
  | cons entry rest =>
      obtain ⟨code, nalu⟩ := entry
      have first := separable (code, nalu) List.mem_cons_self
      have length := start_code_length_start_code code first.nonempty (annexB rest)
      have positive := start_code_positive code
      constructor
      · cases code <;> simp [startsWithStartCode, annexB, startCode, List.isPrefixOf]
      · rw [splitAnnexB, annexB, skip_to_start_code (length ▸ positive), length, List.drop_left,
          nalus_from_annex_b first fun entry member =>
            separable entry (List.mem_cons_of_mem _ member)]
        rfl

end RtpPacket.Codec
