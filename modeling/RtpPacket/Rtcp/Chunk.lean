import Mathlib.Data.List.TakeWhile
import RtpPacket.Lib.BitFields
import RtpPacket.Lib.ByteCodec

/-!
# Packet status chunks

One symbol per packet, packed greedily into 16-bit chunks: a run of at least 14
equal symbols, else 14 one-bit symbols, else 7 two-bit symbols. The decoder reads
chunks until it has as many symbols as the header promised and drops what the
last chunk holds beyond that.
-/

namespace RtpPacket.Rtcp

open ByteCodec BitFields

set_option autoImplicit false

inductive Symbol where
  | notReceived
  | small
  | large
  | noDelta
  deriving DecidableEq, Repr

namespace Symbol

def code : Symbol → Nat
  | notReceived => 0
  | small => 1
  | large => 2
  | noDelta => 3

def ofCode (code : Nat) : Symbol :=
  match code % 4 with
  | 0 => notReceived
  | 1 => small
  | 2 => large
  | _ => noDelta

theorem of_code_code (symbol : Symbol) : ofCode symbol.code = symbol := by
  cases symbol <;> rfl

theorem code_lt (symbol : Symbol) : symbol.code < 4 := by
  cases symbol <;> decide

end Symbol

def runLengthOf (symbol : Symbol) (rest : List Symbol) : Nat :=
  min ((rest.takeWhile (· = symbol)).length + 1) 8191

/-- The chunks of a symbol list; every turn takes at least one symbol, so as much
fuel as symbols is enough. -/
def encodeChunksLoop : Nat → List Symbol → List Nat
  | 0, _ => []
  | _, [] => []
  | fuel + 1, symbol :: rest =>
      let symbols := symbol :: rest
      let runLen := runLengthOf symbol rest
      if symbol.code ≤ 2 ∧ runLen ≥ 14 then
        (symbol.code <<< 13 ||| runLen) :: encodeChunksLoop fuel (symbols.drop runLen)
      else if (symbols.take 14).all (·.code ≤ 1) then
        orFields 1 14 ((symbols.take 14).map Symbol.code) 0x8000 ::
          encodeChunksLoop fuel (symbols.drop 14)
      else
        orFields 2 7 ((symbols.take 7).map Symbol.code) 0xC000 ::
          encodeChunksLoop fuel (symbols.drop 7)

def encodeChunks (symbols : List Symbol) : List Nat := encodeChunksLoop symbols.length symbols

/-- Every symbol a chunk can stand for, before the count cuts it short. -/
def expandChunk (chunk : Nat) : List Symbol :=
  if chunk / 0x8000 % 2 = 0 then
    List.replicate (chunk % 0x2000) (.ofCode (chunk / 0x2000))
  else if chunk / 0x4000 % 2 = 0 then
    (readFields 1 14 chunk).map .ofCode
  else
    (readFields 2 7 chunk).map .ofCode

/-- Chunks off the front of the bytes until the count is reached. -/
def decodeChunks : Bytes → Nat → Option (List Symbol × Bytes)
  | bytes, 0 => some ([], bytes)
  | high :: low :: rest, count + 1 => do
      let symbols := (expandChunk (decodeBE [high, low])).take (count + 1)
      let (later, suffix) ← decodeChunks rest (count + 1 - symbols.length)
      some (symbols ++ later, suffix)
  | _, _ + 1 => none

theorem run_length_le (symbol : Symbol) (rest : List Symbol) :
    runLengthOf symbol rest ≤ (symbol :: rest).length := by
  have whole : (rest.takeWhile (· = symbol)).length + (rest.dropWhile (· = symbol)).length =
      rest.length := by rw [← List.length_append, List.takeWhile_append_dropWhile]
  simp only [runLengthOf, List.length_cons]
  omega

theorem take_run (symbol : Symbol) (rest : List Symbol) :
    (symbol :: rest).take (runLengthOf symbol rest) =
      List.replicate (runLengthOf symbol rest) symbol := by
  have split : symbol :: rest =
      (symbol :: rest.takeWhile (· = symbol)) ++ rest.dropWhile (· = symbol) := by
    rw [List.cons_append, List.takeWhile_append_dropWhile]
  have within : runLengthOf symbol rest ≤ (symbol :: rest.takeWhile (· = symbol)).length := by
    simp only [runLengthOf, List.length_cons]
    omega
  refine List.eq_replicate_iff.mpr ⟨?_, ?_⟩
  · rw [List.length_take]
    exact Nat.min_eq_left (run_length_le symbol rest)
  · intro other member
    rw [split, List.take_append_of_le_length within] at member
    rcases List.mem_cons.mp (List.mem_of_mem_take member) with same | inRun
    · exact same
    · simpa using List.mem_takeWhile_imp inRun

theorem expand_run_chunk {symbol : Symbol} (codeBound : symbol.code ≤ 2) {runLen : Nat}
    (runBound : runLen < 2 ^ 13) :
    symbol.code <<< 13 ||| runLen < 2 ^ 16 ∧
      expandChunk (symbol.code <<< 13 ||| runLen) = List.replicate runLen symbol := by
  have sum : symbol.code <<< 13 ||| runLen = symbol.code * 2 ^ 13 + runLen := by
    rw [← Nat.shiftLeft_add_eq_or_of_lt runBound, Nat.shiftLeft_eq]
  have runBit : (symbol.code * 2 ^ 13 + runLen) / 0x8000 % 2 = 0 := by omega
  have runField : (symbol.code * 2 ^ 13 + runLen) % 0x2000 = runLen := by omega
  have codeField : (symbol.code * 2 ^ 13 + runLen) / 0x2000 = symbol.code := by omega
  rw [sum, expandChunk, if_pos runBit, runField, codeField, Symbol.of_code_code]
  exact ⟨by omega, rfl⟩

theorem map_of_code_fields (symbols : List Symbol) (count : Nat) :
    (symbols.map Symbol.code ++ List.replicate count 0).map Symbol.ofCode =
      symbols ++ List.replicate count .notReceived := by
  rw [List.map_append, List.map_map, List.map_replicate]
  congr 1
  exact List.map_congr_left (fun symbol _ => Symbol.of_code_code symbol) |>.trans (List.map_id _)

theorem expand_one_bit_chunk {symbols : List Symbol} (fits : symbols.length ≤ 14)
    (oneBit : ∀ symbol ∈ symbols, symbol.code ≤ 1) :
    orFields 1 14 (symbols.map Symbol.code) 0x8000 < 2 ^ 16 ∧
      expandChunk (orFields 1 14 (symbols.map Symbol.code) 0x8000) =
        symbols ++ List.replicate (14 - symbols.length) .notReceived := by
  have inside : ∀ field ∈ symbols.map Symbol.code, field < 2 ^ 1 := by
    simp only [List.mem_map, forall_exists_index, and_imp, forall_apply_eq_imp_iff₂]
    intro symbol member
    have bounded := oneBit symbol member
    omega
  have clear : 2 ^ (14 * 1) ∣ 0x8000 := by decide
  obtain ⟨packed, small, sum⟩ := or_fields_eq_add inside clear
  have read := read_fields_or_fields inside (by simpa using fits) clear
  rw [List.length_map] at read
  have vectorBit : ¬ orFields 1 14 (symbols.map Symbol.code) 0x8000 / 0x8000 % 2 = 0 := by omega
  have sizeBit : orFields 1 14 (symbols.map Symbol.code) 0x8000 / 0x4000 % 2 = 0 := by omega
  rw [expandChunk, if_neg vectorBit, if_pos sizeBit, read, map_of_code_fields]
  exact ⟨by omega, rfl⟩

theorem expand_two_bit_chunk {symbols : List Symbol} (fits : symbols.length ≤ 7) :
    orFields 2 7 (symbols.map Symbol.code) 0xC000 < 2 ^ 16 ∧
      expandChunk (orFields 2 7 (symbols.map Symbol.code) 0xC000) =
        symbols ++ List.replicate (7 - symbols.length) .notReceived := by
  have inside : ∀ field ∈ symbols.map Symbol.code, field < 2 ^ 2 := by
    simp only [List.mem_map, forall_exists_index, and_imp, forall_apply_eq_imp_iff₂]
    intro symbol _
    exact symbol.code_lt
  have clear : 2 ^ (7 * 2) ∣ 0xC000 := by decide
  obtain ⟨packed, small, sum⟩ := or_fields_eq_add inside clear
  have read := read_fields_or_fields inside (by simpa using fits) clear
  rw [List.length_map] at read
  have vectorBit : ¬ orFields 2 7 (symbols.map Symbol.code) 0xC000 / 0x8000 % 2 = 0 := by omega
  have sizeBit : ¬ orFields 2 7 (symbols.map Symbol.code) 0xC000 / 0x4000 % 2 = 0 := by omega
  rw [expandChunk, if_neg vectorBit, if_neg sizeBit, read, map_of_code_fields]
  exact ⟨by omega, rfl⟩

/-- The zero slots of a short last vector are cut off by the count. -/
theorem take_padded (symbols : List Symbol) (slots : Nat) :
    (symbols.take slots ++
        List.replicate (slots - (symbols.take slots).length) Symbol.notReceived).take
      symbols.length = symbols.take slots := by
  by_cases short : symbols.length ≤ slots
  · rw [List.take_of_length_le short, List.take_left]
  · have full : slots - (symbols.take slots).length = 0 := by
      rw [List.length_take]
      omega
    rw [full, List.replicate_zero, List.append_nil, List.take_of_length_le]
    rw [List.length_take]
    omega

/-- What the greedy choice gives: a 16-bit chunk that stands for the next `taken`
symbols, at least seven unless the list is shorter. -/
theorem encode_chunks_loop_cons (fuel : Nat) (symbol : Symbol) (rest : List Symbol) :
    ∃ chunk < 2 ^ 16, ∃ taken ≥ 7,
      encodeChunksLoop (fuel + 1) (symbol :: rest) =
        chunk :: encodeChunksLoop fuel ((symbol :: rest).drop taken) ∧
      (expandChunk chunk).take (symbol :: rest).length = (symbol :: rest).take taken := by
  rw [encodeChunksLoop]
  split_ifs with run oneBit
  · have runBound : runLengthOf symbol rest < 2 ^ 13 := by
      simp only [runLengthOf]
      omega
    obtain ⟨chunkBound, expanded⟩ := expand_run_chunk run.1 runBound
    refine ⟨_, chunkBound, _, by omega, rfl, ?_⟩
    rw [expanded, take_run, List.take_of_length_le]
    rw [List.length_replicate]
    exact run_length_le symbol rest
  · have within : ∀ other ∈ (symbol :: rest).take 14, other.code ≤ 1 := by simpa using oneBit
    obtain ⟨chunkBound, expanded⟩ := expand_one_bit_chunk (List.length_take_le _ _) within
    refine ⟨_, chunkBound, 14, by omega, rfl, ?_⟩
    rw [expanded, take_padded]
  · have fits : ((symbol :: rest).take 7).length ≤ 7 := List.length_take_le _ _
    obtain ⟨chunkBound, expanded⟩ := expand_two_bit_chunk fits
    refine ⟨_, chunkBound, 7, by omega, rfl, ?_⟩
    rw [expanded, take_padded]

def chunkBytes (chunks : List Nat) : Bytes := chunks.flatMap (encodeBE 2)

theorem encode_chunks_loop_length (fuel : Nat) (symbols : List Symbol) :
    7 * (encodeChunksLoop fuel symbols).length ≤ symbols.length + 6 := by
  induction fuel generalizing symbols with
  | zero => simp [encodeChunksLoop]
  | succ fuel ih =>
      cases symbols with
      | nil => simp [encodeChunksLoop]
      | cons symbol rest =>
          obtain ⟨chunk, _, taken, atLeast, turn, _⟩ := encode_chunks_loop_cons fuel symbol rest
          have later := ih ((symbol :: rest).drop taken)
          rw [turn, List.length_cons]
          rw [List.length_drop, List.length_cons] at later
          rw [List.length_cons]
          omega

theorem decode_encode_chunks_loop {fuel : Nat} {symbols : List Symbol}
    (enough : symbols.length ≤ fuel) (suffix : Bytes) :
    decodeChunks (chunkBytes (encodeChunksLoop fuel symbols) ++ suffix) symbols.length =
      some (symbols, suffix) := by
  induction fuel generalizing symbols with
  | zero =>
      have empty : symbols = [] := List.length_eq_zero_iff.mp (Nat.le_zero.mp enough)
      subst empty
      simp [encodeChunksLoop, chunkBytes, decodeChunks]
  | succ fuel ih =>
      cases symbols with
      | nil => simp [encodeChunksLoop, chunkBytes, decodeChunks]
      | cons symbol rest =>
          obtain ⟨chunk, bounded, taken, atLeast, turn, expanded⟩ :=
            encode_chunks_loop_cons fuel symbol rest
          have shorter : ((symbol :: rest).drop taken).length ≤ fuel := by
            simp only [List.length_drop, List.length_cons] at enough ⊢
            omega
          have later := ih shorter
          have wire : chunkBytes (encodeChunksLoop (fuel + 1) (symbol :: rest)) ++ suffix =
              byteAt chunk 8 :: byteAt chunk 0 ::
                (chunkBytes (encodeChunksLoop fuel ((symbol :: rest).drop taken)) ++ suffix) := by
            rw [turn]
            simp [chunkBytes, encodeBE]
          have value : decodeBE [byteAt chunk 8, byteAt chunk 0] = chunk := by
            have decoded := decode_be_encode 2 chunk
            rwa [Nat.mod_eq_of_lt (by omega)] at decoded
          rw [wire, List.length_cons, decodeChunks, value]
          rw [List.length_cons] at expanded
          simp only [expanded]
          have remaining : rest.length + 1 - ((symbol :: rest).take taken).length =
              ((symbol :: rest).drop taken).length := by
            simp only [List.length_take, List.length_drop, List.length_cons]
            omega
          rw [remaining, later]
          simp

theorem decode_encode_chunks (symbols : List Symbol) (suffix : Bytes) :
    decodeChunks (chunkBytes (encodeChunks symbols) ++ suffix) symbols.length =
      some (symbols, suffix) :=
  decode_encode_chunks_loop (Nat.le_refl _) suffix

end RtpPacket.Rtcp
