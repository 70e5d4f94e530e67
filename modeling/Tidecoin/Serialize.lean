import Tidecoin.Primitives
import Tidecoin.Lib.Reader

/-!
Reading transactions and headers from the wire: the `Unserialize` side of `serialize.h`,
`primitives/transaction.h`, `primitives/pureheader.h`, `auxpow.h` and `primitives/block.h`. Every
reader is related to the writer of the same type; the proof of a header is present when a bit of the
version read before says so.
-/

namespace Tidecoin

open Lib Lib.Reader List

variable {header : CBlockHeader}

/-- `MAX_SIZE`: the largest size a vector may announce. -/
def maxSize : Nat := 0x02000000

/-- `DataStream::read`. -/
def readData (count : Nat) : Reader String Bytes :=
  Reader.take "DataStream::read(): end of data" count

/-- A little-endian number: `ser_readdata8` to `ser_readdata64`. -/
def readNat (width : Nat) : Reader String Nat := leToNat <$> readData width

def readBits (width bits : Nat) : Reader String (BitVec bits) := BitVec.ofNat bits <$> readNat width

def readUint32 : Reader String UInt32 := UInt32.ofBitVec <$> readBits 4 32

def readUint256 : Reader String Uint256 := readBits 32 256

/-- A size behind a marker byte, which must not have fitted into a shorter form. -/
def readCanonical (width bound : Nat) : Reader String Nat := do
  let nSizeRet ← readNat width
  Reader.check (bound ≤ nSizeRet) "non-canonical ReadCompactSize()"
  return nSizeRet

/-- The size announced by the first byte. -/
def readMarked (chSize : Nat) : Reader String Nat :=
  if chSize < 253 then pure chSize
  else if chSize = 253 then readCanonical 2 253
  else if chSize = 254 then readCanonical 4 0x10000
  else readCanonical 8 0x100000000

/-- `ReadCompactSize`, with its range check. -/
def readCompactSize : Reader String Nat := do
  let chSize ← readNat 1
  let nSizeRet ← readMarked chSize
  Reader.check (nSizeRet ≤ maxSize) "ReadCompactSize(): size too large"
  return nSizeRet

/-- A vector, read in portions whose size does not show in the result. -/
def readVector {α : Type} (read : Reader String α) : Reader String (List α) := do
  let nSize ← readCompactSize
  Reader.many read nSize

/-- A vector of bytes. -/
def readBytes : Reader String Bytes := do
  let nSize ← readCompactSize
  readData nSize

lemma readData_codec (count : Nat) :
    Codec (readData count) id (fun bytes => bytes.length = count) :=
  .take _ count

lemma readNat_codec (width : Nat) : Codec (readNat width) (natToLE width) (· < 256 ^ width) := by
  intro input value rest
  rw [readNat, map_eq_pure_bind]
  simp only [run_bind_eq_ok, readData_codec _ _ _ _, run_pure_eq_ok]
  constructor
  · rintro ⟨bytes, _, ⟨rfl, rfl⟩, rfl, rfl⟩
    exact ⟨leToNat_lt bytes, by rw [natToLE_leToNat, id]⟩
  · rintro ⟨hlt, rfl⟩
    refine ⟨natToLE width value, rest, ⟨natToLE_length width value, rfl⟩, ?_, rfl⟩
    rw [leToNat_natToLE, Nat.mod_eq_of_lt hlt]

lemma readBits_codec {width bits : Nat} (hbits : 8 * width = bits) :
    Codec (readBits width bits) (fun blob => natToLE width blob.toNat) (fun _ => True) := by
  have hpow : 256 ^ width = 2 ^ bits := by rw [← hbits, Nat.pow_mul]
  intro input value rest
  rw [readBits, map_eq_pure_bind]
  simp only [run_bind_eq_ok, readNat_codec _ _ _ _, run_pure_eq_ok, hpow]
  constructor
  · rintro ⟨n, _, ⟨hlt, rfl⟩, rfl, rfl⟩
    exact ⟨trivial, by rw [BitVec.toNat_ofNat, Nat.mod_eq_of_lt hlt]⟩
  · rintro ⟨-, rfl⟩
    refine ⟨value.toNat, rest, ⟨value.isLt, rfl⟩, ?_, rfl⟩
    rw [BitVec.ofNat_toNat, BitVec.setWidth_eq]

lemma readUint32_codec : Codec readUint32 serUint32 (fun _ => True) := by
  have hread : Codec (readBits 4 32) (fun blob => natToLE 4 blob.toNat) (fun _ => True) :=
    readBits_codec rfl
  apply hread.map UInt32.ofBitVec UInt32.toBitVec (fun _ => rfl)
  intro value
  exact ⟨fun _ => ⟨trivial, rfl⟩, fun _ => trivial⟩

lemma readUint256_codec : Codec readUint256 Uint256.toBytes (fun _ => True) := readBits_codec rfl

lemma readCanonical_codec (width bound : Nat) : Codec (readCanonical width bound) (natToLE width)
      (fun nSize => nSize < 256 ^ width ∧ bound ≤ nSize) := by
  intro input value rest
  simp only [readCanonical, run_bind_eq_ok, readNat_codec _ _ _ _, run_check_eq_ok, run_pure_eq_ok]
  constructor
  · rintro ⟨nSize, _, ⟨hlt, rfl⟩, _, _, ⟨hbound, rfl⟩, rfl, rfl⟩
    exact ⟨⟨hlt, hbound⟩, rfl⟩
  · rintro ⟨⟨hlt, hbound⟩, rfl⟩
    exact ⟨value, rest, ⟨hlt, rfl⟩, (), rest, ⟨hbound, rfl⟩, rfl, rfl⟩

lemma readCompactSize_codec : Codec readCompactSize writeCompactSize (· ≤ maxSize) := by
  intro input value rest
  simp only [readCompactSize, run_bind_eq_ok, readNat_codec _ _ _ _, run_check_eq_ok,
    run_pure_eq_ok]
  constructor
  · rintro ⟨chSize, middle, ⟨hchSize, rfl⟩, nSize, _, hmarked, _, _, ⟨hsize, rfl⟩, rfl, rfl⟩
    refine ⟨hsize, ?_⟩
    rw [maxSize] at hsize
    rw [readMarked] at hmarked
    split at hmarked
    case isTrue hsmall =>
      obtain ⟨rfl, rfl⟩ := run_pure_eq_ok.1 hmarked
      rw [writeCompactSize, if_pos hsmall]
    case isFalse hlarge =>
      split at hmarked
      case isTrue h253 =>
        obtain ⟨⟨hlt, hbound⟩, rfl⟩ := (readCanonical_codec _ _ _ _ _).1 hmarked
        rw [writeCompactSize, if_neg (by omega), if_pos (by omega), h253]
        rfl
      case isFalse h253 =>
        split at hmarked
        case isTrue h254 =>
          obtain ⟨⟨hlt, hbound⟩, rfl⟩ := (readCanonical_codec _ _ _ _ _).1 hmarked
          rw [writeCompactSize, if_neg (by omega), if_neg (by omega), if_pos (by omega), h254]
          rfl
        case isFalse =>
          obtain ⟨⟨_, hbound⟩, -⟩ := (readCanonical_codec _ _ _ _ _).1 hmarked
          omega
  · rintro ⟨hsize, rfl⟩
    have hbound : value ≤ 0xffffffff := hsize.trans (by decide)
    unfold writeCompactSize
    by_cases hsmall : value < 253
    · rw [if_pos hsmall]
      refine ⟨value, rest, ⟨by omega, rfl⟩, value, rest, ?_, (), rest, ⟨hsize, rfl⟩, rfl, rfl⟩
      rw [readMarked, if_pos hsmall]
      exact run_pure_eq_ok.2 ⟨rfl, rfl⟩
    · rw [if_neg hsmall]
      by_cases hshort : value ≤ 0xffff
      · rw [if_pos hshort]
        refine ⟨253, natToLE 2 value ++ rest, ⟨by decide, rfl⟩, value, rest, ?_, (), rest,
          ⟨hsize, rfl⟩, rfl, rfl⟩
        exact (readCanonical_codec 2 253).read_write ⟨by omega, by omega⟩ rest
      · rw [if_neg hshort, if_pos hbound]
        refine ⟨254, natToLE 4 value ++ rest, ⟨by decide, rfl⟩, value, rest, ?_, (), rest,
          ⟨hsize, rfl⟩, rfl, rfl⟩
        exact (readCanonical_codec 4 0x10000).read_write ⟨by omega, by omega⟩ rest

lemma readVector_codec {α : Type} {read : Reader String α} {write : α → Bytes}
    {valid : α → Prop} (hread : Codec read write valid) : Codec (readVector read) (serVector write)
      (fun elements => elements.length ≤ maxSize ∧ ∀ element ∈ elements, valid element) := by
  refine (readCompactSize_codec.field length (fun nSize _ => hread.many nSize)
    (fun _ _ hvalid => hvalid.1)).congr (fun elements => ?_) (fun _ _ => rfl)
  rw [eq_self, true_and]

lemma readBytes_codec : Codec readBytes serBytes (fun bytes => bytes.length ≤ maxSize) := by
  refine (readCompactSize_codec.field length (fun nSize _ => readData_codec nSize)
    (fun _ _ hvalid => hvalid)).congr (fun bytes => ?_) (fun _ _ => rfl)
  rw [eq_self, and_true]

def readOutPoint : Reader String COutPoint := do
  let hash ← readUint256
  let n ← readUint32
  return ⟨hash, n⟩

/-- An input; its witness is read after the outputs. -/
def readTxIn : Reader String CTxIn := do
  let prevout ← readOutPoint
  let scriptSig ← readBytes
  let nSequence ← readUint32
  return ⟨prevout, scriptSig, nSequence, []⟩

def readTxOut : Reader String CTxOut := do
  let nValue ← readBits 8 64
  let scriptPubKey ← readBytes
  return ⟨nValue, scriptPubKey⟩

lemma readOutPoint_codec :
    Codec readOutPoint (fun outpoint => outpoint.hash.toBytes ++ serUint32 outpoint.n) (fun _ =>
      True) := by
  intro input value rest
  simp only [readOutPoint, run_bind_eq_ok, readUint256_codec _ _ _, readUint32_codec _ _ _,
    run_pure_eq_ok]
  constructor
  · rintro ⟨hash, _, ⟨-, rfl⟩, n, _, ⟨-, rfl⟩, rfl, rfl⟩
    exact ⟨trivial, (append_assoc _ _ _).symm⟩
  · rintro ⟨-, rfl⟩
    exact ⟨_, _, ⟨trivial, append_assoc _ _ _⟩, _, _, ⟨trivial, rfl⟩, rfl, rfl⟩

lemma readTxIn_codec : Codec readTxIn CTransaction.serTxIn
      (fun txin => txin.scriptSig.length ≤ maxSize ∧ txin.scriptWitness = []) := by
  intro input value rest
  simp only [readTxIn, run_bind_eq_ok, readOutPoint_codec _ _ _, readBytes_codec _ _ _,
    readUint32_codec _ _ _, run_pure_eq_ok]
  constructor
  · rintro ⟨prevout, _, ⟨-, rfl⟩, scriptSig, _, ⟨hsize, rfl⟩, nSequence, _, ⟨-, rfl⟩, rfl, rfl⟩
    exact ⟨⟨hsize, rfl⟩, by simp [CTransaction.serTxIn]⟩
  · rintro ⟨⟨hsize, hwitness⟩, rfl⟩
    refine ⟨value.prevout, _, ⟨trivial, ?_⟩, value.scriptSig, _, ⟨hsize, rfl⟩, value.nSequence, _,
      ⟨trivial, rfl⟩, ?_, rfl⟩
    · simp [CTransaction.serTxIn]
    · rw [← hwitness]

lemma readTxOut_codec :
    Codec readTxOut CTransaction.serTxOut (fun txout => txout.scriptPubKey.length ≤ maxSize) := by
  have hvalue : Codec (readBits 8 64) (fun blob => natToLE 8 blob.toNat) (fun _ => True) :=
    readBits_codec rfl
  intro input value rest
  simp only [readTxOut, run_bind_eq_ok, hvalue _ _ _, readBytes_codec _ _ _, run_pure_eq_ok]
  constructor
  · rintro ⟨nValue, _, ⟨-, rfl⟩, scriptPubKey, _, ⟨hsize, rfl⟩, rfl, rfl⟩
    exact ⟨hsize, (append_assoc _ _ _).symm⟩
  · rintro ⟨hsize, rfl⟩
    exact ⟨_, _, ⟨trivial, append_assoc _ _ _⟩, _, _, ⟨hsize, rfl⟩, rfl, rfl⟩

namespace CTransaction

/-- After an input vector that was read as empty: a flags byte, and the real inputs and outputs if
it is not zero. -/
def readExtended : Reader String (Nat × List CTxIn × List CTxOut) := do
  let flags ← readNat 1
  if flags ≠ 0 then
    let vin ← readVector readTxIn
    let vout ← readVector readTxOut
    return (flags, vin, vout)
  else
    return (0, [], [])

/-- The flags, inputs and outputs. -/
def readBody (allowWitness : Bool) : Reader String (Nat × List CTxIn × List CTxOut) := do
  let vin ← readVector readTxIn
  if vin.isEmpty && allowWitness then
    readExtended
  else
    let vout ← readVector readTxOut
    return (0, vin, vout)

/-- The witness of an input. -/
def readWitness (txin : CTxIn) : Reader String CTxIn := do
  let scriptWitness ← readVector readBytes
  return { txin with scriptWitness }

/-- The witnesses, if the flags announce them, and the flags that remain. -/
def readWitnesses (allowWitness : Bool) (flags : Nat) (vin : List CTxIn) :
    Reader String (Nat × List CTxIn) :=
  if flags &&& 1 ≠ 0 ∧ allowWitness = true then do
    let vin ← Reader.forEach readWitness vin
    Reader.check (vin.any fun txin => !txin.scriptWitness.isEmpty) "Superfluous witness record"
    return (flags ^^^ 1, vin)
  else pure (flags, vin)

/-- `UnserializeTransaction`. -/
def unserialize (allowWitness : Bool) : Reader String CTransaction := do
  let version ← readUint32
  let (flags, vin, vout) ← readBody allowWitness
  let (flags, vin) ← readWitnesses allowWitness flags vin
  Reader.check (flags = 0) "Unknown transaction optional data"
  let nLockTime ← readUint32
  return ⟨vin, vout, version, nLockTime⟩

/-- The transactions that can be read back: no vector is too long, and a transaction without inputs
has no outputs either, since its input vector is taken for the mark of the extended format. -/
structure Readable (tx : CTransaction) : Prop where
  vinLength : tx.vin.length ≤ maxSize
  voutLength : tx.vout.length ≤ maxSize
  scriptSigLength : ∀ txin ∈ tx.vin, txin.scriptSig.length ≤ maxSize
  scriptPubKeyLength : ∀ txout ∈ tx.vout, txout.scriptPubKey.length ≤ maxSize
  stackLength : ∀ txin ∈ tx.vin, txin.scriptWitness.length ≤ maxSize
  elementLength : ∀ txin ∈ tx.vin, ∀ element ∈ txin.scriptWitness, element.length ≤ maxSize
  inputless : tx.vin = [] → tx.vout = []

/-- The input without its witness. -/
def stripWitness (txin : CTxIn) : CTxIn := { txin with scriptWitness := [] }

lemma serVector_stripWitness (vin : List CTxIn) :
    serVector serTxIn (vin.map stripWitness) = serVector serTxIn vin := by
  rw [serVector, serVector, length_map, flatMap_map]
  rfl

variable {vin : List CTxIn}

lemma map_stripWitness (hnone : ∀ txin ∈ vin, txin.scriptWitness = []) :
    vin.map stripWitness = vin := by
  refine (map_congr_left fun txin hmem => ?_).trans (map_id vin)
  rw [stripWitness, ← hnone txin hmem, id]

/-- The inputs as they are read before their witnesses. -/
def BareInputs (vin : List CTxIn) : Prop :=
  vin.length ≤ maxSize ∧ ∀ txin ∈ vin, txin.scriptSig.length ≤ maxSize ∧ txin.scriptWitness = []

def SizedOutputs (vout : List CTxOut) : Prop :=
  vout.length ≤ maxSize ∧ ∀ txout ∈ vout, txout.scriptPubKey.length ≤ maxSize

lemma readVin_codec : Codec (readVector readTxIn) (serVector serTxIn) BareInputs :=
  readVector_codec readTxIn_codec

lemma readVout_codec : Codec (readVector readTxOut) (serVector serTxOut) SizedOutputs :=
  readVector_codec readTxOut_codec

lemma readWitness_codec (txin : CTxIn) :
    Codec (readWitness txin) (fun read => serVector serBytes read.scriptWitness)
      (fun read => stripWitness read = stripWitness txin ∧ read.scriptWitness.length ≤ maxSize ∧
        ∀ element ∈ read.scriptWitness, element.length ≤ maxSize) := by
  have hstack := readVector_codec readBytes_codec
  intro input value rest
  simp only [readWitness, run_bind_eq_ok, hstack _ _ _, run_pure_eq_ok]
  constructor
  · rintro ⟨scriptWitness, _, ⟨hsize, rfl⟩, rfl, rfl⟩
    exact ⟨⟨rfl, hsize⟩, rfl⟩
  · rintro ⟨⟨hstrip, hsize⟩, rfl⟩
    refine ⟨value.scriptWitness, rest, ⟨hsize, rfl⟩, ?_, rfl⟩
    simp only [stripWitness, CTxIn.mk.injEq] at hstrip
    obtain ⟨hprevout, hscriptSig, hnSequence, -⟩ := hstrip
    rw [← hprevout, ← hscriptSig, ← hnSequence]

lemma readWitnesses_zero (vin : List CTxIn) : readWitnesses true 0 vin = pure (0, vin) := by
  simp [readWitnesses]

lemma readWitnesses_codec (hnone : ∀ txin ∈ vin, txin.scriptWitness = []) :
    Codec (Reader.forEach readWitness vin)
      (fun read => read.flatMap fun txin => serVector serBytes txin.scriptWitness)
      (fun read => read.map stripWitness = vin ∧ ∀ txin ∈ read, txin.scriptWitness.length ≤
        maxSize ∧
          ∀ element ∈ txin.scriptWitness, element.length ≤ maxSize) := by
  refine (Codec.forEach readWitness_codec vin).congr (fun read => ?_) (fun _ _ => rfl)
  induction vin generalizing read with
  | nil =>
    rw [forall₂_nil_left_iff, map_eq_nil_iff]
    refine ⟨fun hnil => ⟨hnil, ?_⟩, And.left⟩
    rw [hnil]
    exact fun txin hmem => absurd hmem not_mem_nil
  | cons head tail ih =>
    obtain ⟨hhead, htail⟩ := forall_mem_cons.1 hnone
    have hstripped : stripWitness head = head := by rw [stripWitness, ← hhead]
    cases read with
    | nil => simp
    | cons first others =>
      rw [forall₂_cons, ih htail others, map_cons, cons.injEq, hstripped, forall_mem_cons]
      exact and_and_and_comm

section

variable {input rest : Bytes} {flags : Nat} {vout : List CTxOut}

lemma readExtended_eq_ok : readExtended.run input = .ok ((flags, vin, vout), rest) ↔
      (flags = 0 ∧ vin = [] ∧ vout = [] ∧ input = 0 :: rest) ∨
      (flags ≠ 0 ∧ flags < 256 ∧ BareInputs vin ∧ SizedOutputs vout ∧
        input = natToLE 1 flags ++ (serVector serTxIn vin ++ (serVector serTxOut vout ++
          rest))) := by
  rw [readExtended, run_bind_eq_ok]
  constructor
  · rintro ⟨first, middle, hflags, hrest⟩
    obtain ⟨hlt, rfl⟩ := (readNat_codec _ _ _ _).1 hflags
    split at hrest
    case isTrue hnonzero =>
      simp only [run_bind_eq_ok, readVin_codec _ _ _, readVout_codec _ _ _, run_pure_eq_ok] at hrest
      obtain ⟨vin, _, ⟨hvin, rfl⟩, vout, _, ⟨hvout, rfl⟩, heq, rfl⟩ := hrest
      cases heq
      exact .inr ⟨hnonzero, hlt, hvin, hvout, rfl⟩
    case isFalse hzero =>
      obtain ⟨heq, rfl⟩ := run_pure_eq_ok.1 hrest
      cases heq
      rw [not_not.1 hzero]
      exact .inl ⟨rfl, rfl, rfl, rfl⟩
  · rintro (⟨rfl, rfl, rfl, rfl⟩ | ⟨hnonzero, hlt, hvin, hvout, rfl⟩)
    · exact ⟨0, rest, (readNat_codec 1).read_write (by decide) rest, rfl⟩
    · refine ⟨flags, _, (readNat_codec 1).read_write hlt _, ?_⟩
      rw [if_pos hnonzero]
      simp only [run_bind_eq_ok, readVin_codec _ _ _, readVout_codec _ _ _, run_pure_eq_ok]
      exact ⟨vin, _, ⟨hvin, rfl⟩, vout, _, ⟨hvout, rfl⟩, rfl, rfl⟩

lemma readBody_eq_ok : (readBody true).run input = .ok ((flags, vin, vout), rest) ↔
      (vin ≠ [] ∧ flags = 0 ∧ BareInputs vin ∧ SizedOutputs vout ∧
        input = serVector serTxIn vin ++ (serVector serTxOut vout ++ rest)) ∨
      ∃ tail, input = serVector serTxIn [] ++ tail ∧
        readExtended.run tail = .ok ((flags, vin, vout), rest) := by
  rw [readBody, run_bind_eq_ok]
  constructor
  · rintro ⟨first, middle, hfirst, hrest⟩
    obtain ⟨hvin, rfl⟩ := (readVin_codec _ _ _).1 hfirst
    cases first with
    | nil => exact .inr ⟨middle, rfl, hrest⟩
    | cons head tail =>
      simp only [isEmpty_cons, Bool.false_and, Bool.false_eq_true, if_false,
        run_bind_eq_ok, readVout_codec _ _ _, run_pure_eq_ok] at hrest
      obtain ⟨vout, _, ⟨hvout, rfl⟩, heq, rfl⟩ := hrest
      cases heq
      exact .inl ⟨cons_ne_nil head tail, rfl, hvin, hvout, rfl⟩
  · rintro (⟨hne, rfl, hvin, hvout, rfl⟩ | ⟨tail, rfl, hrest⟩)
    · refine ⟨vin, _, readVin_codec.read_write hvin _, ?_⟩
      rw [isEmpty_eq_false_iff.2 hne]
      simp only [Bool.false_and, Bool.false_eq_true, if_false, run_bind_eq_ok, readVout_codec _ _ _,
        run_pure_eq_ok]
      exact ⟨vout, rest, ⟨hvout, rfl⟩, rfl, rfl⟩
    · refine ⟨[], tail, readVin_codec.read_write ⟨Nat.zero_le _, forall_mem_nil _⟩ _, hrest⟩

end

variable {tx : CTransaction}

lemma serialize_of_no_witness (hnone : ∀ txin ∈ tx.vin, txin.scriptWitness = []) :
    tx.serialize true = serUint32 tx.version ++ (serVector serTxIn tx.vin ++
      (serVector serTxOut tx.vout ++ serUint32 tx.nLockTime)) := by
  have hwitness : tx.hasWitness = false := by
    rw [hasWitness, any_eq_false]
    intro txin hmem
    simp [hnone txin hmem]
  simp [serialize, hwitness]

lemma serialize_of_witness (hwitness : tx.hasWitness) :
    tx.serialize true = serUint32 tx.version ++ (serVector serTxIn [] ++ (natToLE 1 1 ++
      (serVector serTxIn (tx.vin.map stripWitness) ++ (serVector serTxOut tx.vout ++
        ((tx.vin.flatMap fun txin => serVector serBytes txin.scriptWitness) ++
          serUint32 tx.nLockTime))))) := by
  rw [serVector_stripWitness]
  simp only [serialize, hwitness, Bool.and_self, if_true, append_assoc]
  rfl

lemma Readable.of_no_witness
    (hvin : BareInputs tx.vin) (hvout : SizedOutputs tx.vout)
    (hinputless : tx.vin = [] → tx.vout = []) : tx.Readable where
  vinLength := hvin.1
  voutLength := hvout.1
  scriptSigLength txin hmem := (hvin.2 txin hmem).1
  scriptPubKeyLength := hvout.2
  stackLength txin hmem := by
    rw [(hvin.2 txin hmem).2]
    exact Nat.zero_le _
  elementLength txin hmem element helement := by
    rw [(hvin.2 txin hmem).2] at helement
    exact absurd helement not_mem_nil
  inputless := hinputless

lemma unserialize_sound {input rest : Bytes}
    (hread : (unserialize true).run input = .ok (tx, rest)) :
    tx.Readable ∧ input = tx.serialize true ++ rest := by
  simp only [unserialize, run_bind_eq_ok, readUint32_codec _ _ _, run_check_eq_ok, run_pure_eq_ok]
    at hread
  obtain ⟨version, body, ⟨-, rfl⟩, ⟨flags, vin, vout⟩, middle, hbody, ⟨left, vin'⟩, afterWitness,
    hwitnesses, _, _, ⟨hleft, rfl⟩, nLockTime, _, ⟨-, rfl⟩, rfl, rfl⟩ := hread
  subst hleft
  -- The basic format, a transaction with nothing in it, or the extended format.
  rcases readBody_eq_ok.1 hbody with ⟨hne, rfl, hvin, hvout, rfl⟩ | ⟨tail, rfl, hextended⟩
  · obtain ⟨heq, rfl⟩ := run_pure_eq_ok.1 (readWitnesses_zero vin ▸ hwitnesses)
    cases heq
    refine ⟨.of_no_witness hvin hvout (fun hnil => absurd hnil hne), ?_⟩
    rw [serialize_of_no_witness (fun txin hmem => (hvin.2 txin hmem).2)]
    simp
  rcases readExtended_eq_ok.1 hextended with
    ⟨rfl, rfl, rfl, rfl⟩ | ⟨hnonzero, -, hvin, hvout, rfl⟩
  · obtain ⟨heq, rfl⟩ := run_pure_eq_ok.1 hwitnesses
    cases heq
    refine ⟨.of_no_witness (by simp [BareInputs]) (by simp [SizedOutputs]) (fun _ => rfl), rfl⟩
  · rw [readWitnesses] at hwitnesses
    split at hwitnesses
    case isFalse =>
      -- The witness flag is not set, but another one is: it remains and is refused.
      obtain ⟨heq, -⟩ := run_pure_eq_ok.1 hwitnesses
      cases heq
      exact absurd rfl hnonzero
    case isTrue =>
      have hnone : ∀ txin ∈ vin, txin.scriptWitness = [] := fun txin hmem => (hvin.2 txin hmem).2
      simp only [run_bind_eq_ok, readWitnesses_codec hnone _ _ _, run_check_eq_ok,
        run_pure_eq_ok] at hwitnesses
      obtain ⟨read, _, ⟨⟨hstrip, hstacks⟩, rfl⟩, _, _, ⟨hwitness, rfl⟩, heq, rfl⟩ := hwitnesses
      obtain ⟨hflags, rfl⟩ := Prod.mk.inj heq
      obtain rfl : flags = 1 := by
        rw [← Nat.xor_zero flags, ← Nat.xor_self 1, ← Nat.xor_assoc, ← hflags, Nat.zero_xor]
      have hlength : vin'.length = vin.length := by rw [← hstrip, length_map]
      have hscriptSig : ∀ txin ∈ vin', txin.scriptSig.length ≤ maxSize := by
        intro txin hmem
        exact (hvin.2 (stripWitness txin) (hstrip ▸ mem_map_of_mem hmem)).1
      refine ⟨⟨hlength ▸ hvin.1, hvout.1, hscriptSig, hvout.2, fun txin hmem =>
        (hstacks txin hmem).1,
        fun txin hmem => (hstacks txin hmem).2, ?_⟩, ?_⟩
      · rintro rfl
        cases hwitness
      · have hencoded : serialize ⟨vin', vout, version, nLockTime⟩ true = _ :=
          serialize_of_witness hwitness
        simp [hencoded, hstrip]

lemma unserialize_of_body (tx : CTransaction) (flags : Nat) (vin : List CTxIn)
    {body middle rest : Bytes}
    (hbody : (readBody true).run body = .ok ((flags, vin, tx.vout), middle))
    (hwitnesses : (readWitnesses true flags vin).run middle =
      .ok ((0, tx.vin), serUint32 tx.nLockTime ++ rest)) :
    (unserialize true).run (serUint32 tx.version ++ body) = .ok (tx, rest) := by
  simp only [unserialize, run_bind_eq_ok, readUint32_codec _ _ _, run_check_eq_ok, run_pure_eq_ok]
  exact ⟨_, _, ⟨trivial, rfl⟩, _, _, hbody, _, _, hwitnesses, (), _, ⟨rfl, rfl⟩, _, rest,
    ⟨trivial, rfl⟩, rfl, rfl⟩

lemma unserialize_serialize (hreadable : tx.Readable) (rest : Bytes) :
    (unserialize true).run (tx.serialize true ++ rest) = .ok (tx, rest) := by
  obtain ⟨vin, vout, version, nLockTime⟩ := tx
  obtain ⟨hvin, hvout, hscriptSig, hscriptPubKey, hstack, helement, hinputless⟩ := hreadable
  by_cases hwitness : hasWitness ⟨vin, vout, version, nLockTime⟩ = true
  · have hnone : ∀ txin ∈ vin.map stripWitness, txin.scriptWitness = [] := by
      intro txin hmem
      obtain ⟨_, _, rfl⟩ := mem_map.1 hmem
      rfl
    have hstripped : BareInputs (vin.map stripWitness) := by
      refine ⟨(length_map _).trans_le hvin, fun txin hmem => ⟨?_, hnone txin hmem⟩⟩
      obtain ⟨original, horiginal, rfl⟩ := mem_map.1 hmem
      exact hscriptSig original horiginal
    rw [serialize_of_witness hwitness, append_assoc]
    simp only [append_assoc]
    refine unserialize_of_body ⟨vin, vout, version, nLockTime⟩ 1 (vin.map stripWitness)
      (readBody_eq_ok.2 (.inr ⟨_, rfl, readExtended_eq_ok.2 (.inr
        ⟨by decide, by decide, hstripped, ⟨hvout, hscriptPubKey⟩, rfl⟩)⟩)) ?_
    rw [readWitnesses, if_pos (by decide)]
    simp only [run_bind_eq_ok, readWitnesses_codec hnone _ _ _, run_check_eq_ok, run_pure_eq_ok]
    exact ⟨vin, _, ⟨⟨rfl, fun txin hmem => ⟨hstack txin hmem, helement txin hmem⟩⟩, rfl⟩, (), _,
      ⟨hwitness, rfl⟩, rfl, rfl⟩
  · have hnone : ∀ txin ∈ vin, txin.scriptWitness = [] := by
      intro txin hmem
      rw [hasWitness, any_eq_true] at hwitness
      by_contra hsome
      exact hwitness ⟨txin, hmem, by simp [hsome]⟩
    rw [serialize_of_no_witness hnone]
    simp only [append_assoc]
    refine unserialize_of_body ⟨vin, vout, version, nLockTime⟩ 0 vin (readBody_eq_ok.2 ?_)
      (run_pure_eq_ok.2 ⟨rfl, rfl⟩)
    by_cases hempty : vin = []
    · subst hempty
      obtain rfl := hinputless rfl
      exact .inr ⟨_, rfl, readExtended_eq_ok.2 (.inl ⟨rfl, rfl, rfl, rfl⟩)⟩
    · exact .inl ⟨hempty, rfl, ⟨hvin, fun txin hmem => ⟨hscriptSig txin hmem, hnone txin hmem⟩⟩,
        ⟨hvout, hscriptPubKey⟩, rfl⟩

lemma unserialize_codec :
    Codec (unserialize true) (fun tx => tx.serialize true) CTransaction.Readable := by
  intro input tx rest
  constructor
  · exact unserialize_sound
  · rintro ⟨hreadable, rfl⟩
    exact unserialize_serialize hreadable rest

lemma length_le_flatMap {α : Type} (write : α → Bytes) {elements : List α} {element : α}
    (hmem : element ∈ elements) : (write element).length ≤ (elements.flatMap write).length := by
  exact (sublist_flatten_of_mem (mem_map_of_mem hmem)).length_le

lemma count_le_flatMap {α : Type} {write : α → Bytes} (hwrite : ∀ element, write element ≠ [])
    (elements : List α) : elements.length ≤ (elements.flatMap write).length := by
  induction elements with
  | nil => simp
  | cons element elements ih =>
    have hpos := length_pos_iff.2 (hwrite element)
    rw [flatMap_cons, length_append, length_cons]
    omega

lemma serBytes_ne_nil (bytes : Bytes) : serBytes bytes ≠ [] := by
  rw [serBytes, writeCompactSize]
  split
  · simp [natToLE]
  · split
    · simp
    · split <;> simp

lemma serialize_false (tx : CTransaction) :
    tx.serialize false = serUint32 tx.version ++ (serVector serTxIn tx.vin ++
      (serVector serTxOut tx.vout ++ serUint32 tx.nLockTime)) := by
  simp [serialize]

variable {tx : CTransaction}

lemma lengths_of_size (hsize : (tx.serialize false).length ≤ maxSize) :
    tx.vin.length ≤ maxSize ∧ (∀ txin ∈ tx.vin, txin.scriptSig.length ≤ maxSize) ∧
      tx.vout.length ≤ maxSize ∧ ∀ txout ∈ tx.vout, txout.scriptPubKey.length ≤ maxSize := by
  rw [serialize_false] at hsize
  simp only [serVector, length_append] at hsize
  have hvin : tx.vin.length ≤ (tx.vin.flatMap serTxIn).length :=
    count_le_flatMap (fun txin => by simp [serTxIn, serUint32, natToLE]) tx.vin
  have hvout : tx.vout.length ≤ (tx.vout.flatMap serTxOut).length :=
    count_le_flatMap (fun txout => by simp [serTxOut, natToLE]) tx.vout
  refine ⟨by omega, ?_, by omega, ?_⟩
  · intro txin hmem
    have hinput := length_le_flatMap serTxIn hmem
    have hscript : txin.scriptSig.length ≤ (serTxIn txin).length := by
      simp only [serTxIn, serBytes, length_append]
      omega
    omega
  · intro txout hmem
    have houtput := length_le_flatMap serTxOut hmem
    have hscript : txout.scriptPubKey.length ≤ (serTxOut txout).length := by
      simp only [serTxOut, serBytes, length_append]
      omega
    omega

lemma serialize_false_length_le (tx : CTransaction) :
    (tx.serialize false).length ≤ (tx.serialize true).length := by
  simp only [serialize, Bool.false_and, Bool.false_eq_true, if_false, length_append, length_nil]
  omega

lemma Readable.of_size (hvin : tx.vin ≠ []) (hsize : (tx.serialize true).length ≤ maxSize) :
    tx.Readable := by
  have hbase := serialize_false_length_le tx
  obtain ⟨hinputs, hscriptSig, houtputs, hscriptPubKey⟩ := lengths_of_size (hbase.trans hsize)
  have hstacks : ∀ txin ∈ tx.vin, (serVector serBytes txin.scriptWitness).length ≤ maxSize := by
    intro txin hmem
    by_cases hwitness : tx.hasWitness = true
    · rw [serialize_of_witness hwitness] at hsize
      simp only [length_append] at hsize
      have hstack := length_le_flatMap (fun txin => serVector serBytes txin.scriptWitness) hmem
      omega
    · rw [hasWitness, any_eq_true] at hwitness
      have hnone : txin.scriptWitness = [] := by
        by_contra hsome
        exact hwitness ⟨txin, hmem, by simp [hsome]⟩
      rw [hnone]
      decide
  have hparts : ∀ txin ∈ tx.vin, (txin.scriptWitness.flatMap serBytes).length ≤ maxSize := by
    intro txin hmem
    have hstack := hstacks txin hmem
    rw [serVector, length_append] at hstack
    omega
  refine ⟨hinputs, houtputs, hscriptSig, hscriptPubKey, ?_, ?_, fun hnil => absurd hnil hvin⟩
  · intro txin hmem
    have hcount := count_le_flatMap serBytes_ne_nil txin.scriptWitness
    exact hcount.trans (hparts txin hmem)
  · intro txin hmem element helement
    have hlength := length_le_flatMap serBytes helement
    rw [serBytes, length_append] at hlength
    have hpart := hparts txin hmem
    omega

variable {other : CTransaction}

lemma eq_of_serialize_true (htx : tx.Readable) (hother : other.Readable)
    (heq : tx.serialize true = other.serialize true) : tx = other := by
  have hfirst := unserialize_serialize htx []
  rw [heq, unserialize_serialize hother] at hfirst
  cases hfirst
  rfl

lemma vin_of_serialize_false (hsize : (tx.serialize false).length ≤ maxSize)
    (heq : tx.serialize false = other.serialize false) :
    tx.vin.map stripWitness = other.vin.map stripWitness := by
  have hread : ∀ {tx : CTransaction}, (tx.serialize false).length ≤ maxSize → ∃ rest,
      (readUint32 >>= fun _ => readVector readTxIn).run (tx.serialize false) =
        .ok (tx.vin.map stripWitness, rest) := by
    intro tx hsize
    obtain ⟨hvin, hscripts, -⟩ := lengths_of_size hsize
    have hstripped : (tx.vin.map stripWitness).length ≤ maxSize ∧
        ∀ txin ∈ tx.vin.map stripWitness, txin.scriptSig.length ≤ maxSize ∧
          txin.scriptWitness = [] := by
      refine ⟨(length_map _).trans_le hvin, ?_⟩
      intro txin hmem
      obtain ⟨original, horiginal, rfl⟩ := mem_map.1 hmem
      exact ⟨hscripts original horiginal, rfl⟩
    rw [serialize_false, ← serVector_stripWitness]
    have hvector := readVin_codec.read_write hstripped
      (serVector serTxOut tx.vout ++ serUint32 tx.nLockTime)
    exact ⟨_, run_bind_eq_ok.2 ⟨_, _, readUint32_codec.read_write trivial _, hvector⟩⟩
  obtain ⟨rest, hfirst⟩ := hread hsize
  rw [heq] at hsize
  obtain ⟨rest', hsecond⟩ := hread hsize
  rw [heq, hsecond] at hfirst
  exact (congrArg Prod.fst (Except.ok.inj hfirst)).symm

/-- The transaction without its witnesses. -/
def stripped (tx : CTransaction) : CTransaction := { tx with vin := tx.vin.map stripWitness }

lemma serialize_stripped (tx : CTransaction) : tx.stripped.serialize true = tx.serialize false := by
  rw [serialize_of_no_witness, serialize_false, stripped, serVector_stripWitness]
  intro txin hmem
  obtain ⟨original, -, rfl⟩ := mem_map.1 hmem
  rfl

lemma stripped_of_hasWitness (hwitness : tx.hasWitness = false) : tx.stripped = tx := by
  rw [hasWitness, any_eq_false] at hwitness
  rw [stripped, map_stripWitness]
  intro txin hmem
  simpa using hwitness txin hmem

lemma stripped_of_serialize_false (hvin : tx.vin ≠ [])
    (hsize : (tx.serialize false).length ≤ maxSize)
    (heq : tx.serialize false = other.serialize false) : tx.stripped = other.stripped := by
  have hinputs := vin_of_serialize_false hsize heq
  have hother : other.vin ≠ [] := by
    rintro hnil
    rw [hnil, map_nil, map_eq_nil_iff] at hinputs
    exact hvin hinputs
  apply eq_of_serialize_true
  · apply Readable.of_size
    · simpa [stripped] using hvin
    · rwa [serialize_stripped]
  · apply Readable.of_size
    · simpa [stripped] using hother
    · rwa [serialize_stripped, ← heq]
  · rw [serialize_stripped, serialize_stripped, heq]

end CTransaction

namespace CPureBlockHeader

/-- The 80 header bytes. -/
def unserialize : Reader String CPureBlockHeader := do
  let nVersion ← readBits 4 32
  let hashPrevBlock ← readUint256
  let hashMerkleRoot ← readUint256
  let nTime ← readUint32
  let nBits ← readUint32
  let nNonce ← readUint32
  return ⟨nVersion, hashPrevBlock, hashMerkleRoot, nTime, nBits, nNonce⟩

lemma unserialize_codec : Codec unserialize serialize (fun _ => True) := by
  have hversion : Codec (readBits 4 32) (fun blob => natToLE 4 blob.toNat) (fun _ => True) :=
    readBits_codec rfl
  intro input header rest
  simp only [unserialize, run_bind_eq_ok, hversion _ _ _, readUint256_codec _ _ _,
    readUint32_codec _ _ _, run_pure_eq_ok, serialize, append_assoc]
  constructor
  · rintro ⟨nVersion, _, ⟨-, rfl⟩, hashPrevBlock, _, ⟨-, rfl⟩, hashMerkleRoot, _, ⟨-, rfl⟩,
      nTime, _,
      ⟨-, rfl⟩, nBits, _, ⟨-, rfl⟩, nNonce, _, ⟨-, rfl⟩, rfl, rfl⟩
    exact ⟨trivial, rfl⟩
  · rintro ⟨-, rfl⟩
    exact ⟨_, _, ⟨trivial, rfl⟩, _, _, ⟨trivial, rfl⟩, _, _, ⟨trivial, rfl⟩, _, _, ⟨trivial, rfl⟩,
      _, _, ⟨trivial, rfl⟩, _, _, ⟨trivial, rfl⟩, rfl, rfl⟩

end CPureBlockHeader

namespace CAuxPow

/-- The proof, without the block hash and the coinbase index that are read with it. -/
def unserialize : Reader String CAuxPow := do
  let coinbaseTx ← CTransaction.unserialize true
  let _hashBlock ← readUint256
  let vMerkleBranch ← readVector readUint256
  let _nIndex ← readBits 4 32
  let vChainMerkleBranch ← readVector readUint256
  let nChainIndex ← readBits 4 32
  let parentBlock ← CPureBlockHeader.unserialize
  return ⟨coinbaseTx, vMerkleBranch, vChainMerkleBranch, nChainIndex, parentBlock⟩

/-- The proof's encoding with values of the two unused fields. -/
def serializeWith (auxpow : CAuxPow) (hashBlock : Uint256) (nIndex : BitVec 32) : Bytes :=
  auxpow.coinbaseTx.serialize true ++ hashBlock.toBytes ++
    serVector Uint256.toBytes auxpow.vMerkleBranch ++ natToLE 4 nIndex.toNat ++
    serVector Uint256.toBytes auxpow.vChainMerkleBranch ++
    natToLE 4 auxpow.nChainIndex.toNat ++ auxpow.parentBlock.serialize

lemma serializeWith_length (auxpow : CAuxPow) (hashBlock : Uint256) (nIndex : BitVec 32) :
    (auxpow.serializeWith hashBlock nIndex).length = auxpow.serialize.length := by
  simp [serializeWith, serialize]

/-- The proofs that can be read back. -/
structure Readable (auxpow : CAuxPow) : Prop where
  coinbaseTx : auxpow.coinbaseTx.Readable
  vMerkleBranchLength : auxpow.vMerkleBranch.length ≤ maxSize
  vChainMerkleBranchLength : auxpow.vChainMerkleBranch.length ≤ maxSize

/-- Exactly the encodings of a readable proof are read as it, with anything in the unused fields. -/
theorem unserialize_eq_ok {input rest : Bytes} {auxpow : CAuxPow} :
    unserialize.run input = .ok (auxpow, rest) ↔ auxpow.Readable ∧
      ∃ hashBlock nIndex, input = auxpow.serializeWith hashBlock nIndex ++ rest := by
  have hint : Codec (readBits 4 32) (fun blob => natToLE 4 blob.toNat) (fun _ => True) :=
    readBits_codec rfl
  have hbranch : Codec (readVector readUint256) (serVector Uint256.toBytes)
      (fun branch => branch.length ≤ maxSize) :=
    (readVector_codec readUint256_codec).congr (fun _ => by simp) (fun _ _ => rfl)
  simp only [unserialize, run_bind_eq_ok, CTransaction.unserialize_codec _ _ _,
    readUint256_codec _ _ _, hbranch _ _ _, hint _ _ _, CPureBlockHeader.unserialize_codec _ _ _,
    run_pure_eq_ok, serializeWith, append_assoc]
  constructor
  · rintro ⟨coinbaseTx, _, ⟨htx, rfl⟩, hashBlock, _, ⟨-, rfl⟩, vMerkleBranch, _,
      ⟨hmerkle, rfl⟩, nIndex,
      _, ⟨-, rfl⟩, vChainMerkleBranch, _, ⟨hchain, rfl⟩, nChainIndex, _, ⟨-, rfl⟩, parentBlock, _,
      ⟨-, rfl⟩, rfl, rfl⟩
    exact ⟨⟨htx, hmerkle, hchain⟩, hashBlock, nIndex, rfl⟩
  · rintro ⟨⟨htx, hmerkle, hchain⟩, hashBlock, nIndex, rfl⟩
    exact ⟨_, _, ⟨htx, rfl⟩, _, _, ⟨trivial, rfl⟩, _, _, ⟨hmerkle, rfl⟩, _, _, ⟨trivial, rfl⟩, _, _,
      ⟨hchain, rfl⟩, _, _, ⟨trivial, rfl⟩, _, _, ⟨trivial, rfl⟩, rfl, rfl⟩

end CAuxPow

namespace CBlockHeader

/-- The header, with a proof exactly when the version read announces one. -/
def unserialize : Reader String CBlockHeader := do
  let header ← CPureBlockHeader.unserialize
  if header.isAuxpow then
    let auxpow ← CAuxPow.unserialize
    return ⟨header, some auxpow⟩
  else
    return ⟨header, none⟩

/-- The headers that can be read back: the bit of the version says whether there is a proof. -/
structure Readable (header : CBlockHeader) : Prop where
  isAuxpowEq : header.isAuxpow = header.auxpow.isSome
  auxpow : ∀ auxpow, header.auxpow = some auxpow → auxpow.Readable

/-- The header's encoding with values of the two unused fields of a proof. -/
def serializeWith (header : CBlockHeader) (hashBlock : Uint256) (nIndex : BitVec 32) : Bytes :=
  header.toCPureBlockHeader.serialize ++
    match header.auxpow with
    | some auxpow => auxpow.serializeWith hashBlock nIndex
    | none => []

/-- Exactly the encodings of a readable header are read as it, with anything in the unused fields
of the proof. -/
theorem unserialize_eq_ok {input rest : Bytes} :
    unserialize.run input = .ok (header, rest) ↔ header.Readable ∧
      ∃ hashBlock nIndex, input = header.serializeWith hashBlock nIndex ++ rest := by
  obtain ⟨pure, auxpow⟩ := header
  simp only [unserialize, run_bind_eq_ok, CPureBlockHeader.unserialize_codec _ _ _, serializeWith,
    append_assoc]
  constructor
  · rintro ⟨read, middle, ⟨-, rfl⟩, hproof⟩
    cases hbit : read.isAuxpow with
    | false =>
      rw [if_neg (by rw [hbit]; decide)] at hproof
      obtain ⟨heq, rfl⟩ := run_pure_eq_ok.1 hproof
      cases heq
      exact ⟨⟨hbit, fun _ hsome => by cases hsome⟩, 0, 0, rfl⟩
    | true =>
      rw [if_pos hbit, run_bind_eq_ok] at hproof
      obtain ⟨proof, _, hread, hok⟩ := hproof
      obtain ⟨heq, rfl⟩ := run_pure_eq_ok.1 hok
      cases heq
      obtain ⟨hreadable, hashBlock, nIndex, rfl⟩ := CAuxPow.unserialize_eq_ok.1 hread
      refine ⟨⟨hbit, ?_⟩, hashBlock, nIndex, rfl⟩
      rintro _ ⟨⟩
      exact hreadable
  · rintro ⟨⟨hbit, hreadable⟩, hashBlock, nIndex, rfl⟩
    refine ⟨pure, _, ⟨trivial, rfl⟩, ?_⟩
    dsimp only at hbit
    cases auxpow with
    | none =>
      rw [if_neg (by rw [hbit]; decide)]
      rfl
    | some proof =>
      rw [if_pos (by rw [hbit]; rfl), run_bind_eq_ok]
      refine ⟨proof, rest, ?_, rfl⟩
      exact CAuxPow.unserialize_eq_ok.2 ⟨hreadable proof rfl, hashBlock, nIndex, rfl⟩

lemma serialize_eq_some (hbit : header.isAuxpow = header.auxpow.isSome) :
    header.serialize = some (header.serializeWith 0 0) := by
  rw [serialize, serializeWith, hbit]
  cases header.auxpow with
  | none => simp
  | some auxpow => rfl

lemma serializeWith_length (header : CBlockHeader) (hashBlock : Uint256) (nIndex : BitVec 32) :
    (header.serializeWith hashBlock nIndex).length = (header.serializeWith 0 0).length := by
  rw [serializeWith, serializeWith]
  cases header.auxpow with
  | none => rfl
  | some auxpow =>
    rw [length_append, length_append, auxpow.serializeWith_length, auxpow.serializeWith_length]

/-- The wire format of headers. A header whose bit says whether it has a proof is read back from
what is written for it, whatever follows, exactly when no vector of the proof is longer than
`MAX_SIZE` and its coinbase is not without inputs but with outputs. What is read as a header is
written again with the same length and only the two unused fields of the proof set to zero. A header
with the bit and without a proof is not written. -/
theorem wire_round_trip : (∀ header : CBlockHeader, header.isAuxpow = header.auxpow.isSome →
      ((∃ written, header.serialize = some written ∧
          ∀ rest, unserialize.run (written ++ rest) = .ok (header, rest)) ↔
        ∀ auxpow, header.auxpow = some auxpow → auxpow.Readable)) ∧
    (∀ (input rest : Bytes) (header : CBlockHeader), unserialize.run input = .ok (header, rest) →
      ∃ consumed written hashBlock nIndex, input = consumed ++ rest ∧
        header.serialize = some written ∧ written.length = consumed.length ∧
        consumed = header.serializeWith hashBlock nIndex ∧ written = header.serializeWith 0 0) ∧
    ∀ header : CBlockHeader, header.isAuxpow = true → header.auxpow = none →
      header.serialize = none := by
  refine ⟨fun header hbit => ⟨?_, ?_⟩, ?_, ?_⟩
  · rintro ⟨written, -, hread⟩
    exact (unserialize_eq_ok.1 (hread [])).1.auxpow
  · intro hreadable
    refine ⟨_, serialize_eq_some hbit, fun rest => ?_⟩
    exact unserialize_eq_ok.2 ⟨⟨hbit, hreadable⟩, 0, 0, rfl⟩
  · intro input rest header hread
    obtain ⟨hreadable, hashBlock, nIndex, rfl⟩ := unserialize_eq_ok.1 hread
    exact ⟨_, _, hashBlock, nIndex, rfl, serialize_eq_some hreadable.isAuxpowEq,
      (header.serializeWith_length hashBlock nIndex).symm, rfl, rfl⟩
  · intro header hbit hnone
    rw [serialize, if_pos hbit, hnone]
    rfl

section

variable (coinbaseTx : CTransaction) (vMerkleBranch : List Uint256)

/-- A header with a proof over the given coinbase and branch. -/
def sampleProof : CBlockHeader where
  nVersion := 0x100
  hashPrevBlock := 0
  hashMerkleRoot := 0
  nTime := 0
  nBits := 0
  nNonce := 0
  auxpow := some ⟨coinbaseTx, vMerkleBranch, [], 0, CPureBlockHeader.null⟩

lemma sampleProof_isAuxpow : (sampleProof coinbaseTx vMerkleBranch).isAuxpow =
      (sampleProof coinbaseTx vMerkleBranch).auxpow.isSome := by
  change decide ((0x100 : BitVec 32) &&& 0x100 ≠ 0) = true
  decide

end

/-- A coinbase with one input, which has a witness, and one output. -/
def sampleCoinbase : CTransaction where
  vin := [⟨⟨0, 0xffffffff⟩, [1, 7], 0, [[1, 2, 3]]⟩]
  vout := [⟨5, [0x51]⟩]
  version := 2
  nLockTime := 0

/-- A header with a proof is written, read back and written again; without its proof it is not
written. -/
theorem wire_round_trip_sample : let header := sampleProof sampleCoinbase [1, 2]
    (∃ written, header.serialize = some written ∧
      (∀ rest, unserialize.run (written ++ rest) = .ok (header, rest)) ∧
      ∃ again, header.serialize = some again ∧ again.length = written.length) ∧
    header.withoutAuxpow.serialize = none := by
  intro header
  have hbit : header.isAuxpow = header.auxpow.isSome := sampleProof_isAuxpow _ _
  have hreadable : ∀ auxpow, header.auxpow = some auxpow → auxpow.Readable := by
    rintro _ ⟨⟩
    refine ⟨⟨?_, ?_, ?_, ?_, ?_, ?_, ?_⟩, ?_, ?_⟩
    all_goals decide
  obtain ⟨written, hwritten, hread⟩ := (wire_round_trip.1 header hbit).2 hreadable
  refine ⟨⟨written, hwritten, hread, ?_⟩, wire_round_trip.2.2 header.withoutAuxpow hbit rfl⟩
  obtain ⟨consumed, again, _, _, hinput, hagain, hlength, -, -⟩ :=
    wire_round_trip.2.1 (written ++ []) [] header (hread [])
  rw [append_cancel_right hinput]
  exact ⟨again, hagain, hlength⟩

/-- A header with or without the bit as its proof demands, which is written and not read back. -/
def NotReadBack (header : CBlockHeader) : Prop :=
  header.isAuxpow = header.auxpow.isSome ∧
    ∃ written, header.serialize = some written ∧ unserialize.run written ≠ .ok (header, [])

lemma notReadBack_of_not_readable {coinbaseTx : CTransaction} {vMerkleBranch : List Uint256}
    (hunreadable : ¬CAuxPow.Readable ⟨coinbaseTx, vMerkleBranch, [], 0, CPureBlockHeader.null⟩) :
    NotReadBack (sampleProof coinbaseTx vMerkleBranch) := by
  have hbit := sampleProof_isAuxpow coinbaseTx vMerkleBranch
  refine ⟨hbit, _, serialize_eq_some hbit, fun hread => hunreadable ?_⟩
  exact (unserialize_eq_ok.1 hread).1.auxpow _ rfl

/-- A proof whose coinbase has an output and no input, and a proof with a branch that is too long:
neither is read back from its encoding. -/
theorem unreadable_not_read_back : NotReadBack (sampleProof ⟨[], [⟨0, []⟩], 2, 0⟩ []) ∧
      NotReadBack (sampleProof ⟨[], [], 2, 0⟩ (List.replicate (maxSize + 1) 0)) := by
  constructor
  · apply notReadBack_of_not_readable
    intro hreadable
    have hempty := hreadable.coinbaseTx.inputless rfl
    cases hempty
  · apply notReadBack_of_not_readable
    intro hreadable
    have hlength := hreadable.vMerkleBranchLength
    rw [length_replicate] at hlength
    omega

end CBlockHeader

end Tidecoin
