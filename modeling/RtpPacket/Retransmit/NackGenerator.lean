import RtpPacket.Lib.FlatRanges
import RtpPacket.Lib.InsertionMap
import RtpPacket.Lib.Run
import RtpPacket.Lib.Word

/-!
# The NACK generator

The receiver notes which packets arrived, keeps the ones that are missing below the
highest one, and lists them for retransmission until they arrive, grow old, are
superseded by a keyframe or were asked for often enough.
-/

namespace RtpPacket.Nack

open FlatRanges Word

set_option autoImplicit false

structure Histogram where
  buckets : List Int
  values : List Int
  maxNumValues : Int
  index : Nat
  deriving DecidableEq, Repr

namespace Histogram

def new (numBuckets maxNumValues : Int) : Except String Histogram :=
  if ¬numBuckets > 0 ∨ ¬maxNumValues > 0 then
    .error "Histogram: numBuckets and maxNumValues must be > 0"
  else
    .ok {
      buckets := List.replicate numBuckets.toNat 0
      values := []
      maxNumValues := maxNumValues
      index := 0 }

def add (self : Histogram) (value : Int) : Histogram :=
  let last : Int := self.buckets.length - 1
  let value := if value < 0 then 0 else value
  let value := if value > last then last else value
  let taken := match self.values[self.index]? with
    | some overwritten =>
        (self.buckets.modify overwritten.toNat (· - 1), self.values.set self.index value)
    | none => (self.buckets, self.values ++ [value])
  { self with
    buckets := taken.1.modify value.toNat (· + 1)
    values := taken.2
    index := (self.index + 1) % self.maxNumValues.toNat }

/-- The loop over the buckets, in exact arithmetic. -/
def inverseCdfFrom (probability : ℚ) (n : Nat) : List Int → ℚ → Nat → Nat
  | [], _, bucket => bucket
  | count :: rest, accumulated, bucket =>
      if accumulated < probability then
        inverseCdfFrom probability n rest (accumulated + count / n) (bucket + 1)
      else bucket

def numValues (self : Histogram) : Nat := self.values.length

def inverseCdf (self : Histogram) (probability : ℚ) : Nat :=
  let probability := if probability < 0 then 0 else probability
  let probability := if probability > 1 then 1 else probability
  if self.numValues = 0 then 0
  else inverseCdfFrom probability self.numValues self.buckets 0 0

def reset (self : Histogram) : Histogram :=
  { self with
    buckets := self.buckets.map fun _ => 0
    values := []
    index := 0 }

end Histogram

structure NackInfo where
  createdAt : ℚ
  /-- 0 when it was never sent. -/
  sentAt : ℚ
  retries : Nat
  sendAtSeq : Int
  deriving DecidableEq

structure NackOptions where
  maxPacketAge : Option Nat
  maxNackEntries : Option Nat
  maxNackRetries : Option Nat
  rttMs : Option ℚ
  sendNackDelayMs : Option ℚ
  reorderBuckets : Option Int
  reorderValues : Option Int

structure NackGenerator where
  maxPacketAge : Nat
  maxNackEntries : Nat
  maxNackRetries : Nat
  rttMs : ℚ
  sendNackDelayMs : ℚ
  /-- The extended sequence numbers that arrived, as flat ranges. -/
  received : List Int
  missing : InsertionMap Int NackInfo
  keyframes : List Int
  reorderHistogram : Histogram
  highestExtSeq : Int
  started : Bool
  needKeyframe : Bool

namespace NackGenerator

def new (opts : NackOptions) : Except String NackGenerator := do
  let histogram ← Histogram.new (opts.reorderBuckets.getD 10) (opts.reorderValues.getD 128)
  .ok {
    maxPacketAge := opts.maxPacketAge.getD 10000
    maxNackEntries := opts.maxNackEntries.getD 1000
    maxNackRetries := opts.maxNackRetries.getD 10
    rttMs := opts.rttMs.getD 100
    sendNackDelayMs := opts.sendNackDelayMs.getD 0
    received := []
    missing := .empty
    keyframes := []
    reorderHistogram := histogram
    highestExtSeq := -1
    started := false
    needKeyframe := false }

def waitNumberOfPackets (self : NackGenerator) (probability : ℚ) : Nat :=
  if self.reorderHistogram.numValues = 0 then 0
  else self.reorderHistogram.inverseCdf probability

/-- The first index in `[lo, hi)` whose element is not below `extSeq`. -/
def lowerBound (arr : List Int) (extSeq : Int) (lo hi : Nat) : Nat :=
  if lo < hi then
    let mid := (lo + hi) >>> 1
    if arr.getD mid 0 < extSeq then lowerBound arr extSeq (mid + 1) hi
    else lowerBound arr extSeq lo mid
  else lo
termination_by hi - lo
decreasing_by all_goals simp only [Nat.shiftRight_succ, Nat.shiftRight_zero]; omega

def insertKeyframe (arr : List Int) (extSeq : Int) : List Int :=
  if ∀ last ∈ arr.getLast?, last < extSeq then arr ++ [extSeq]
  else
    let lo := lowerBound arr extSeq 0 arr.length
    if arr[lo]? ≠ some extSeq then arr.take lo ++ extSeq :: arr.drop lo else arr

def addKeyframe (self : NackGenerator) (extSeq : Int) : NackGenerator :=
  { self with keyframes := insertKeyframe self.keyframes extSeq }

def noteKeyframe (self : NackGenerator) (extSeq : Int) (isKeyframe : Bool) : NackGenerator :=
  if isKeyframe then self.addKeyframe extSeq else self

/-- The keys below the cutoff are a prefix; the loop stops at the first one that stays. -/
def evictMissingBelow (self : NackGenerator) (cutoff : Int) : NackGenerator :=
  { self with missing := self.missing.dropWhile (· < cutoff) }

def dropEnded (cutoff : Int) : List Int → List Int
  | start :: stop :: rest => if stop ≤ cutoff then dropEnded cutoff rest else start :: stop :: rest
  | ranges => ranges

def clip (cutoff : Int) : List Int → List Int
  | [] => []
  | start :: rest => if start < cutoff then cutoff :: rest else start :: rest

/-- The in-place trimming of `_received`. -/
def trimReceived (cutoff : Int) : List Int → List Int
  | [] => []
  | start :: rest =>
      if start < cutoff then clip cutoff (dropEnded cutoff (start :: rest)) else start :: rest

def evictOld (self : NackGenerator) : NackGenerator :=
  if self.highestExtSeq < 0 then self
  else
    let cutoff := self.highestExtSeq - self.maxPacketAge
    if cutoff ≤ 0 then self
    else
      evictMissingBelow
        { self with
          received := trimReceived cutoff self.received
          keyframes := self.keyframes.dropWhile (· < cutoff) } cutoff

def span (start stop : Int) : List Int :=
  (List.range (stop - start).toNat).map fun (i : Nat) => start + i

def lost (library : Library) (self : NackGenerator) (start stop : Int) : List Int :=
  (span start stop).filter fun seq => !library.contains self.received seq

/-- The end of `_addMissingRange`; `clock` is the time that it reads. -/
def insertMissing (self : NackGenerator) (clock : ℚ) (seqs : List Int) : NackGenerator :=
  let wait := self.waitNumberOfPackets (1 / 2)
  { self with
    missing := seqs.foldl (fun missing seq => missing.set seq
      { createdAt := clock
        sentAt := 0
        retries := 0
        sendAtSeq := seq + wait }) self.missing }

/-- Step 1 of an overflow: drop what the latest keyframe supersedes. -/
def evictSuperseded (self : NackGenerator) : NackGenerator :=
  match self.keyframes.getLast? with
  | some latestKf => self.evictMissingBelow latestKf
  | none => self

def addMissingRange (library : Library) (self : NackGenerator) (clock : ℚ) (start stop : Int) :
    NackGenerator :=
  let newCount := (self.lost library start stop).length
  if self.missing.size + newCount > self.maxNackEntries then
    let evicted := self.evictSuperseded
    if evicted.missing.size + newCount > self.maxNackEntries then
      { evicted with
        missing := .empty
        needKeyframe := true }
    else evicted.insertMissing clock (evicted.lost library start stop)
  else self.insertMissing clock (self.lost library start stop)

/-- The gap below a new highest packet; a keyframe supersedes what is missing below it. -/
def revealGap (library : Library) (self : NackGenerator) (clock : ℚ) (extSeq : Int)
    (isKeyframe : Bool) : NackGenerator :=
  if extSeq > self.highestExtSeq + 1 then
    if isKeyframe then self.evictMissingBelow extSeq
    else self.addMissingRange library clock (self.highestExtSeq + 1) extSeq
  else self

/-- What every arrival does, recovered or not. -/
def arrive (library : Library) (self : NackGenerator) (extSeq : Int) : NackGenerator :=
  { self with
    received := library.add self.received extSeq (extSeq + 1)
    missing := self.missing.erase extSeq }

def observePacket (library : Library) (self : NackGenerator) (clock : ℚ) (extSeq : Int)
    (isKeyframe isRecovered : Bool) : NackGenerator :=
  let arrived := self.arrive library extSeq
  if !self.started then
    noteKeyframe
      { arrived with
        started := true
        highestExtSeq := extSeq } extSeq isKeyframe
  else if isRecovered then arrived.noteKeyframe extSeq isKeyframe
  else if extSeq ≤ self.highestExtSeq then
    let counted :=
      if extSeq < self.highestExtSeq then
        { arrived with
          reorderHistogram := self.reorderHistogram.add (self.highestExtSeq - extSeq) }
      else arrived
    counted.noteKeyframe extSeq isKeyframe
  else
    let jumped := arrived.revealGap library clock extSeq isKeyframe
    (noteKeyframe { jumped with highestExtSeq := extSeq } extSeq isKeyframe).evictOld

inductive Turn where
  | wait
  | send
  | drop
  deriving DecidableEq, Repr

def turn (self : NackGenerator) (now : ℚ) (info : NackInfo) : Turn :=
  if info.sentAt = 0 then
    if now - info.createdAt < self.sendNackDelayMs then .wait
    else if self.highestExtSeq < info.sendAtSeq then .wait
    else .send
  else if now - info.sentAt < self.rttMs then .wait
  else if info.retries ≥ self.maxNackRetries then .drop
  else .send

def touch (self : NackGenerator) (now : ℚ) (info : NackInfo) : NackInfo :=
  if self.turn now info = .send then
    { info with
      sentAt := now
      retries := if info.sentAt = 0 then 1 else info.retries + 1 }
  else info

def taking (self : NackGenerator) (now : ℚ) (due : Turn) : List Int :=
  (self.missing.entries.filter fun entry => self.turn now entry.2 = due).map Prod.fst

/-- The extended sequence numbers that a feedback lists. -/
def listed (self : NackGenerator) (now : ℚ) : List Int := self.evictOld.taking now .send

def buildFeedback (self : NackGenerator) (now : ℚ) : NackGenerator × List Nat :=
  let trimmed := self.evictOld
  ({ trimmed with
      missing := (trimmed.taking now .drop).foldl InsertionMap.erase
        (trimmed.missing.mapValues fun _ info => trimmed.touch now info) },
    (self.listed now).map (wrapUnsigned 16))

/-- `none` stands for what is not a finite number. -/
def updateRtt (self : NackGenerator) (rttMs : Option ℚ) : NackGenerator :=
  match rttMs with
  | none => self
  | some rttMs => { self with rttMs := max 20 rttMs }

def acknowledgeKeyframeRequested (self : NackGenerator) : NackGenerator :=
  { self with needKeyframe := false }

def reset (self : NackGenerator) : NackGenerator :=
  { self with
    received := []
    missing := .empty
    keyframes := []
    reorderHistogram := self.reorderHistogram.reset
    highestExtSeq := -1
    started := false
    needKeyframe := false }

end NackGenerator

end RtpPacket.Nack
