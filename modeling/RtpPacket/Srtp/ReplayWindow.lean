import RtpPacket.Lib.Run
import RtpPacket.Lib.SlidingWindow
import RtpPacket.Srtp.Session

/-!
# The replay window

Four 32-bit words hold the last 128 indices as distances below the highest one.
The in-place word loop of the source runs from the top word down, so every word
it reads is still the old one. `Represents` is the abstraction function: the
words against the set of indices accepted so far.
-/

namespace RtpPacket.Srtp

open ByteCodec Run SlidingWindow

set_option autoImplicit false

abbrev Bitmap := Vector (BitVec 32) 4

def wordAt (bm : Bitmap) (word : Nat) : BitVec 32 := bm[word]?.getD 0

def bitAt (bm : Bitmap) (distance : Nat) : Bool :=
  (wordAt bm (distance / 32)).getLsbD (distance % 32)

/-- The value one turn of the shift loop stores into word `i`. -/
def shiftedWord (bm : Bitmap) (wordShift bitShift i : Nat) : BitVec 32 :=
  let v := if wordShift ≤ i then wordAt bm (i - wordShift) else 0
  if bitShift ≠ 0 then
    (v <<< bitShift) |||
      (if wordShift + 1 ≤ i then wordAt bm (i - wordShift - 1) >>> (32 - bitShift) else 0)
  else v

def bitmapShiftLeft (bm : Bitmap) (n : Nat) : Bitmap :=
  if n ≥ 128 then Vector.replicate 4 0
  else
    [3, 2, 1, 0].foldl
      (fun bm i => bm.setIfInBounds i (shiftedWord bm (n / 32) (n % 32) i)) bm

def replayCheckAndUpdate (st : RecvState) (index : Nat) : RecvState × Bool :=
  if st.maxIndex < 0 then
    ({ maxIndex := index, replay := #v[1, 0, 0, 0] }, true)
  else if index > st.maxIndex then
    let bm := bitmapShiftLeft st.replay (index - st.maxIndex).toNat
    ({ maxIndex := index, replay := bm.setIfInBounds 0 (wordAt bm 0 ||| 1) }, true)
  else
    let d := (st.maxIndex - index).toNat
    if d ≥ replayWindow then (st, false)
    else
      let word := d / 32
      let bit := d % 32
      if wordAt st.replay word &&& (1#32 <<< bit) ≠ 0 then (st, false)
      else
        let marked := wordAt st.replay word ||| (1#32 <<< bit)
        ({ st with replay := st.replay.setIfInBounds word marked }, true)

theorem word_at_set (bm : Bitmap) {word : Nat} (inside : word < 4) (value : BitVec 32)
    (other : Nat) :
    wordAt (bm.setIfInBounds word value) other =
      if other = word then value else wordAt bm other := by
  unfold wordAt
  rw [Vector.getElem?_setIfInBounds]
  by_cases same : word = other
  · subst same
    simp [inside]
  · simp [same, Ne.symm same]

theorem shifted_word_congr {bm other : Bitmap} (wordShift bitShift i : Nat)
    (agree : ∀ word ≤ i, wordAt bm word = wordAt other word) :
    shiftedWord bm wordShift bitShift i = shiftedWord other wordShift bitShift i := by
  unfold shiftedWord
  rw [agree (i - wordShift) (by omega), agree (i - wordShift - 1) (by omega)]

/-- The loop invariant: words from `count` on are done, lower ones are untouched. -/
theorem shift_loop_words (wordShift bitShift count : Nat) (bounded : count ≤ 4) (bm : Bitmap)
    (word : Nat) :
    wordAt ((List.range count).reverse.foldl
      (fun bm i => bm.setIfInBounds i (shiftedWord bm wordShift bitShift i)) bm) word =
      if word < count then shiftedWord bm wordShift bitShift word else wordAt bm word := by
  induction count generalizing bm with
  | zero => simp
  | succ count ih =>
      rw [List.range_succ, List.reverse_append, List.reverse_singleton, List.singleton_append,
        List.foldl_cons, ih (by omega)]
      have inside : count < 4 := by omega
      by_cases below : word < count
      · rw [if_pos below, if_pos (by omega)]
        apply shifted_word_congr
        intro lower lowerBound
        rw [word_at_set bm inside, if_neg (by omega)]
      · rw [if_neg below, word_at_set bm inside]
        by_cases same : word = count
        · rw [if_pos same, if_pos (by omega), same]
        · rw [if_neg same, if_neg (by omega)]

theorem word_at_shift (bm : Bitmap) {n : Nat} (small : n < 128) {word : Nat} (inside : word < 4) :
    wordAt (bitmapShiftLeft bm n) word = shiftedWord bm (n / 32) (n % 32) word := by
  have unshifted : ¬ n ≥ 128 := by omega
  have turns : [3, 2, 1, 0] = (List.range 4).reverse := by decide
  rw [bitmapShiftLeft, if_neg unshifted, turns, shift_loop_words _ _ _ (Nat.le_refl 4),
    if_pos inside]

/-- One output bit of a turn: the bit `wordShift` words and `bitShift` bits below. -/
theorem shifted_word_bit (bm : Bitmap) (wordShift i : Nat) {bitShift position : Nat}
    (shiftBound : bitShift < 32) (positionBound : position < 32) :
    (shiftedWord bm wordShift bitShift i).getLsbD position =
      (decide (32 * wordShift + bitShift ≤ 32 * i + position) &&
        bitAt bm (32 * i + position - (32 * wordShift + bitShift))) := by
  unfold shiftedWord bitAt
  by_cases borrow : position < bitShift
  · have wordIndex (above : wordShift + 1 ≤ i) :
        (32 * i + position - (32 * wordShift + bitShift)) / 32 = i - wordShift - 1 := by omega
    have bitIndex (above : wordShift + 1 ≤ i) :
        (32 * i + position - (32 * wordShift + bitShift)) % 32 = 32 - bitShift + position := by
      omega
    have shifting : bitShift ≠ 0 := by omega
    simp only [shifting, ne_eq, not_false_eq_true, if_true, BitVec.getLsbD_or,
      BitVec.getLsbD_shiftLeft, borrow, decide_true, Bool.not_true, Bool.and_false,
      Bool.false_and, Bool.false_or]
    by_cases above : wordShift + 1 ≤ i
    · have reach : 32 * wordShift + bitShift ≤ 32 * i + position := by omega
      simp only [above, if_true, BitVec.getLsbD_ushiftRight, reach, decide_true, Bool.true_and,
        wordIndex above, bitIndex above]
    · have short : ¬ 32 * wordShift + bitShift ≤ 32 * i + position := by omega
      simp [above, short]
  · have wordIndex (above : wordShift ≤ i) :
        (32 * i + position - (32 * wordShift + bitShift)) / 32 = i - wordShift := by omega
    have bitIndex (above : wordShift ≤ i) :
        (32 * i + position - (32 * wordShift + bitShift)) % 32 = position - bitShift := by omega
    -- The bits borrowed from the lower word end below `position`.
    have borrowed (value : BitVec 32) (shifting : bitShift ≠ 0) :
        (value >>> (32 - bitShift)).getLsbD position = false := by
      rw [BitVec.getLsbD_ushiftRight]
      exact BitVec.getLsbD_of_ge _ _ (by omega)
    have own (value lower : BitVec 32) (shifting : bitShift ≠ 0) :
        (value <<< bitShift ||| lower >>> (32 - bitShift)).getLsbD position =
          value.getLsbD (position - bitShift) := by
      rw [BitVec.getLsbD_or, borrowed lower shifting, BitVec.getLsbD_shiftLeft]
      simp [positionBound, borrow]
    have lowerWord : (if wordShift + 1 ≤ i then wordAt bm (i - wordShift - 1) >>> (32 - bitShift)
        else 0) = (if wordShift + 1 ≤ i then wordAt bm (i - wordShift - 1) else 0) >>>
          (32 - bitShift) := by
      split_ifs <;> simp
    by_cases above : wordShift ≤ i
    · have reach : 32 * wordShift + bitShift ≤ 32 * i + position := by omega
      simp only [reach, decide_true, Bool.true_and, wordIndex above, bitIndex above, if_pos above,
        lowerWord]
      by_cases shifting : bitShift ≠ 0
      · rw [if_pos shifting, own _ _ shifting]
      · rw [if_neg shifting]
        congr 1
        omega
    · have short : ¬ 32 * wordShift + bitShift ≤ 32 * i + position := by omega
      have noLower : ¬ wordShift + 1 ≤ i := by omega
      simp [above, short, noLower]

theorem bit_at_shift (bm : Bitmap) (n : Nat) {distance : Nat} (inside : distance < 128) :
    bitAt (bitmapShiftLeft bm n) distance =
      (decide (n ≤ distance) && bitAt bm (distance - n)) := by
  by_cases small : n < 128
  · have number : 32 * (n / 32) + n % 32 = n := Nat.div_add_mod n 32
    have place : 32 * (distance / 32) + distance % 32 = distance := Nat.div_add_mod distance 32
    rw [bitAt, word_at_shift bm small (by omega),
      shifted_word_bit bm _ _ (Nat.mod_lt n (by decide)) (Nat.mod_lt distance (by decide)),
      number, place]
  · have far : ¬ n ≤ distance := by omega
    have cleared : n ≥ 128 := by omega
    have word : distance / 32 < 4 := by omega
    simp [bitAt, bitmapShiftLeft, cleared, wordAt, far, word]

theorem bit_at_set (bm : Bitmap) {distance : Nat} (inside : distance < 128) (other : Nat) :
    bitAt (bm.setIfInBounds (distance / 32)
      (wordAt bm (distance / 32) ||| (1#32 <<< (distance % 32)))) other =
      (decide (other = distance) || bitAt bm other) := by
  unfold bitAt
  rw [word_at_set bm (by omega)]
  have position : other % 32 < 32 := Nat.mod_lt _ (by decide)
  by_cases sameWord : other / 32 = distance / 32
  · rw [if_pos sameWord, BitVec.getLsbD_or, sameWord, Bool.or_comm]
    congr 1
    rw [BitVec.getLsbD_shiftLeft]
    by_cases same : other = distance
    · subst same
      simp [position]
    · have apart : other % 32 ≠ distance % 32 := by omega
      have clear : (1#32).getLsbD (other % 32 - distance % 32) = false ∨
          other % 32 < distance % 32 := by
        by_cases below : other % 32 < distance % 32
        · exact Or.inr below
        · left
          rw [BitVec.getLsbD_one]
          simp
          omega
      rcases clear with clear | below
      · simp [same, clear]
      · simp [same, below]
  · rw [if_neg sameWord]
    have apart : other ≠ distance := by
      intro same
      exact sameWord (by rw [same])
    simp [apart]

theorem mask_test (bm : Bitmap) (distance : Nat) :
    wordAt bm (distance / 32) &&& (1#32 <<< (distance % 32)) ≠ 0 ↔ bitAt bm distance = true := by
  have position : distance % 32 < 32 := Nat.mod_lt _ (by decide)
  have single : (1#32 <<< (distance % 32)) = BitVec.twoPow 32 (distance % 32) := by
    rw [BitVec.twoPow]
  rw [bitAt, single, BitVec.and_twoPow]
  by_cases set : (wordAt bm (distance / 32)).getLsbD (distance % 32) = true
  · simp only [set, if_true, iff_true]
    intro zero
    have bit := congrArg (fun value => value.getLsbD (distance % 32)) zero
    simp [position] at bit
  · simp [set]

/-- Words and highest index against the set of accepted indices. -/
def Represents (st : RecvState) (accepted : Set Nat) : Prop :=
  (accepted = ∅ ∧ st.maxIndex = -1) ∨
    ∃ highest : Nat, st.maxIndex = highest ∧
      Tracks replayWindow accepted highest (bitAt st.replay)

theorem represents_new : Represents RecvState.new ∅ := Or.inl ⟨rfl, rfl⟩

theorem admits_nothing_accepted (width index : Nat) : Admits width ∅ index := by
  simp [Admits]

theorem first_bitmap_bit {distance : Nat} (inside : distance < 128) :
    bitAt #v[1, 0, 0, 0] distance = decide (distance = 0) := by
  have words : distance / 32 = 0 ∨ distance / 32 = 1 ∨ distance / 32 = 2 ∨ distance / 32 = 3 := by
    omega
  unfold bitAt
  rcases words with word | word | word | word <;> rw [word]
  · have position : distance % 32 = distance := by omega
    have width : distance < 32 := by omega
    rw [position]
    show (1#32).getLsbD distance = _
    rw [BitVec.getLsbD_one]
    simp
  all_goals
    have positive : distance ≠ 0 := by omega
    simp [wordAt, positive]

theorem advanced_bitmap_bit (bm : Bitmap) (shift : Nat) {distance : Nat}
    (inside : distance < 128) :
    bitAt ((bitmapShiftLeft bm shift).setIfInBounds 0 (wordAt (bitmapShiftLeft bm shift) 0 ||| 1))
      distance =
      (decide (distance = 0) || decide (shift ≤ distance) && bitAt bm (distance - shift)) := by
  rw [← bit_at_shift bm shift inside]
  have first : 0 < 128 := by decide
  exact bit_at_set (bitmapShiftLeft bm shift) first distance

/-- One call refines one step of the abstract window: it accepts exactly the
admitted indices, records what it accepts and keeps its state otherwise. -/
theorem replay_check_refines {st : RecvState} {accepted : Set Nat}
    (represents : Represents st accepted) (index : Nat) :
    (Admits replayWindow accepted index →
      ∃ st', replayCheckAndUpdate st index = (st', true) ∧
        Represents st' (insert index accepted)) ∧
    (¬ Admits replayWindow accepted index → replayCheckAndUpdate st index = (st, false)) := by
  rcases represents with ⟨empty, start⟩ | ⟨highest, maxIndex, tracks⟩
  · subst empty
    refine ⟨fun _ => ?_, fun refused => absurd (admits_nothing_accepted _ _) refused⟩
    refine ⟨_, by rw [replayCheckAndUpdate, if_pos (by omega)], Or.inr ⟨index, rfl, ?_⟩⟩
    rw [insert_empty_eq]
    exact Tracks.first fun distance inside => first_bitmap_bit inside
  · have started : ¬ st.maxIndex < 0 := by omega
    have gap : (st.maxIndex - index).toNat = highest - index := by omega
    rw [replayCheckAndUpdate, if_neg started]
    by_cases ahead : highest < index
    · have jump : (index - st.maxIndex).toNat = index - highest := by omega
      have shifted := tracks.advance ahead
        fun distance inside => advanced_bitmap_bit st.replay (index - highest) inside
      rw [if_pos (by omega), jump]
      exact ⟨fun _ => ⟨_, rfl, Or.inr ⟨index, rfl, shifted⟩⟩,
        fun refused => absurd (tracks.admits_ahead ahead) refused⟩
    · rw [if_neg (by omega), gap]
      by_cases old : highest - index ≥ replayWindow
      · rw [if_pos old]
        have refused := tracks.not_admits_old (show index + replayWindow ≤ highest by omega)
        exact ⟨fun admitted => absurd admitted refused, fun _ => rfl⟩
      · rw [if_neg old]
        have rule := tracks.admits_late_iff (show index ≤ highest by omega) (by omega)
        dsimp only
        by_cases seen : bitAt st.replay (highest - index) = true
        · rw [if_pos ((mask_test _ _).mpr seen)]
          refine ⟨fun admitted => ?_, fun _ => rfl⟩
          rw [rule.mp admitted] at seen
          exact absurd seen (by decide)
        · rw [if_neg (fun masked => seen ((mask_test _ _).mp masked))]
          have place : highest - index < 128 := by
            simp only [replayWindow] at old
            omega
          have filled := tracks.fill (show index ≤ highest by omega)
            fun distance _ => bit_at_set st.replay place distance
          refine ⟨fun _ => ⟨_, rfl, Or.inr ⟨highest, maxIndex, filled⟩⟩, fun refused => ?_⟩
          exact absurd (rule.mpr (Bool.not_eq_true _ ▸ seen)) refused

structure ReplayHistory where
  st : RecvState
  accepted : List Nat

namespace ReplayHistory

def start : ReplayHistory where
  st := RecvState.new
  accepted := []

def step (history : ReplayHistory) (index : Nat) : ReplayHistory × List Bool :=
  let checked := replayCheckAndUpdate history.st index
  ({ st := checked.1
     accepted := if checked.2 then index :: history.accepted else history.accepted }, [checked.2])

/-- The words stand for the set, and a call accepts exactly an index that is not in
it and lies above the largest one less 128. -/
def Refines (history : ReplayHistory) (index : Nat) : Prop :=
  Represents history.st {other | other ∈ history.accepted} ∧
    ((replayCheckAndUpdate history.st index).2 = true ↔
      index ∉ history.accepted ∧
        ∀ largest ∈ history.accepted.max?, (largest : Int) - replayWindow < index)

theorem admits_iff_largest (accepted : List Nat) (index : Nat) :
    Admits replayWindow {other | other ∈ accepted} index ↔
      index ∉ accepted ∧ ∀ largest ∈ accepted.max?, (largest : Int) - replayWindow < index := by
  apply and_congr Iff.rfl
  constructor
  · intro near largest member
    have close := near largest (List.max?_eq_some_iff.mp member).1
    omega
  · intro near earlier member
    cases top : accepted.max? with
    | none =>
        rw [List.max?_eq_none_iff.mp top] at member
        cases member
    | some largest =>
        have bounded := (List.max?_eq_some_iff.mp top).2 earlier member
        have close := near largest top
        omega

theorem represents_step {history : ReplayHistory} (index : Nat)
    (represents : Represents history.st {other | other ∈ history.accepted}) :
    Represents (history.step index).1.st {other | other ∈ (history.step index).1.accepted} := by
  obtain ⟨accepts, refuses⟩ := replay_check_refines represents index
  by_cases admitted : Admits replayWindow {other | other ∈ history.accepted} index
  · obtain ⟨entry, checked, recorded⟩ := accepts admitted
    simp only [step, checked, if_true]
    simpa [Set.insert_def] using recorded
  · simpa only [step, refuses admitted, Bool.false_eq_true, if_false] using represents

theorem refines_step {history : ReplayHistory} (index : Nat)
    (represents : Represents history.st {other | other ∈ history.accepted}) :
    history.Refines index := by
  obtain ⟨accepts, refuses⟩ := replay_check_refines represents index
  refine ⟨represents, ?_⟩
  rw [← admits_iff_largest]
  constructor
  · intro answered
    by_contra refused
    rw [refuses refused] at answered
    cases answered
  · intro admitted
    obtain ⟨entry, checked, _⟩ := accepts admitted
    rw [checked]

/-- Any sequence of indices put to one fresh state is answered as the set answers. -/
theorem replay_window_refines_set (indices : List Nat) :
    Always step Refines start indices := by
  have initial : Represents start.st {other | other ∈ start.accepted} := by
    simpa [start] using represents_new
  have free : Always step (fun _ _ => True) start indices := always_of_forall (by simp) _ _
  apply always_of_invariant
    (fun history => Represents history.st {other | other ∈ history.accepted}) _ _ initial free
  · intro history index _ represents
    exact represents_step index represents
  · intro history index _ represents
    exact refines_step index represents

end ReplayHistory

end RtpPacket.Srtp
