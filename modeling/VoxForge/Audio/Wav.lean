import Mathlib.Algebra.Group.Int.Defs
import VoxForge.Foundation.Bytes

/-! Samples in a WAV container, written and read. -/
namespace VoxForge.Audio
open Foundation

inductive WavError where
  /-- `struct.error`: a number does not fit, or the buffer ends too early. -/
  | struct
  | value (message : String)
  deriving DecidableEq, Repr

/-- `struct.pack` of one unsigned number with so many bytes. -/
def packUnsigned (width : Nat) (v : Int) : Except WavError Bytes :=
  if 0 ≤ v ∧ v.toNat < 256 ^ width then .ok (leBytes width v.toNat) else .error .struct

/-- `struct.unpack_from("<I", buffer, offset)`. -/
def unpackFrom (buffer : Bytes) (offset : Nat) : Except WavError Nat :=
  if offset + 4 ≤ buffer.length then .ok (leValue (slice buffer offset (offset + 4))) else .error .struct

def riff : Bytes := [0x52,0x49,0x46,0x46]
def wave : Bytes := [0x57,0x41,0x56,0x45]
def fmt : Bytes := [0x66,0x6d,0x74,0x20]
def dataId : Bytes := [0x64,0x61,0x74,0x61]

def pcm16leToWav (pcm : Bytes) (sampleRate : Int) : Except WavError Bytes := do
  let channels : Int := 1
  let bitsPerSample : Int := 16
  let byteRate := sampleRate * channels * bitsPerSample / 8
  let blockAlign := channels * bitsPerSample / 8
  let dataSize : Int := pcm.length
  let header := riff ++ (← packUnsigned 4 (36 + dataSize)) ++ wave ++ fmt ++ (← packUnsigned 4 16) ++
    (← packUnsigned 2 1) ++ (← packUnsigned 2 channels) ++ (← packUnsigned 4 sampleRate) ++
    (← packUnsigned 4 byteRate) ++ (← packUnsigned 2 blockAlign) ++ (← packUnsigned 2 bitsPerSample) ++ dataId ++
    (← packUnsigned 4 dataSize)
  return header ++ pcm

/-- The walk over the chunks of a container, from an offset on. -/
def walkChunks (audio : Bytes) (offset : Nat) : Except WavError Bytes :=
  if offset + 8 ≤ audio.length then
    let chunkId := slice audio offset (offset + 4)
    match unpackFrom audio (offset + 4) with
    | .error e => .error e
    | .ok chunkSize =>
      if chunkId = dataId then .ok (slice audio (offset + 8) (offset + 8 + chunkSize))
      else walkChunks audio (offset + 8 + (chunkSize + chunkSize % 2))
  else .error (.value "WAV missing data chunk")
termination_by audio.length - offset

def isContainer (audio : Bytes) : Bool :=
  12 ≤ audio.length && slice audio 0 4 = riff && slice audio 8 12 = wave

def extractPcm16le (audio : Bytes) : Except WavError Bytes :=
  if isContainer audio then walkChunks audio 12 else .ok audio

/-- The size that the header of a chunk at an offset tells. -/
def chunkSize (audio : Bytes) (offset : Nat) : Nat := leValue (slice audio (offset + 4) (offset + 8))

/-- The offsets of the chunks of a container. -/
inductive ChunkAt (audio : Bytes) : Nat → Prop where
  | first : ChunkAt audio 12
  | next {offset : Nat} (h : ChunkAt audio offset) (hin : offset + 8 ≤ audio.length) :
    ChunkAt audio (offset + 8 + (chunkSize audio offset + chunkSize audio offset % 2))

/-- What a reader of containers may answer. -/
inductive Extracted (audio : Bytes) : Except WavError Bytes → Prop where
  | raw (h : isContainer audio = false) : Extracted audio (.ok audio)
  | samples {offset : Nat} (h : isContainer audio) (hat : ChunkAt audio offset) (hin : offset + 8 ≤ audio.length)
      (hid : slice audio offset (offset + 4) = dataId) :
    Extracted audio (.ok (slice audio (offset + 8) (offset + 8 + chunkSize audio offset)))
  | missing (h : isContainer audio) : Extracted audio (.error (.value "WAV missing data chunk"))

theorem unpackFrom_ok {audio : Bytes} {offset : Nat} (h : offset + 8 ≤ audio.length) :
    unpackFrom audio (offset + 4) = .ok (chunkSize audio offset) := if_pos (by omega)

/-- The walk ends with the data of a chunk on it, or with none. -/
theorem walkChunks_extracted {audio : Bytes} (hcontainer : isContainer audio) {offset : Nat}
    (hat : ChunkAt audio offset) : Extracted audio (walkChunks audio offset) := by
  fun_induction walkChunks audio offset with
  | case1 offset hin e hunpack =>
    rw [unpackFrom_ok hin] at hunpack
    cases hunpack
  | case2 offset hin chunkId size hunpack hid =>
    obtain rfl := Except.ok.inj ((unpackFrom_ok hin).symm.trans hunpack)
    exact .samples hcontainer hat hin hid
  | case3 offset hin chunkId size hunpack hid ih =>
    obtain rfl := Except.ok.inj ((unpackFrom_ok hin).symm.trans hunpack)
    exact ih (hat.next hin)
  | case4 offset hin => exact .missing hcontainer

theorem extractPcm16le_extracted (audio : Bytes) : Extracted audio (extractPcm16le audio) := by
  unfold extractPcm16le
  split
  · next h => exact walkChunks_extracted h .first
  · next h => exact .raw (by simpa using h)


/-! The round trip -/

theorem packUnsigned_natCast {width v : Nat} (h : v < 256 ^ width) :
    packUnsigned width (v : Int) = .ok (leBytes width v) := by
  rw [packUnsigned,Int.toNat_natCast,if_pos ⟨Int.natCast_nonneg v,h⟩]

/-- The bytes before the chunk of the samples. -/
def wavFront (pcm : Bytes) (sampleRate : Nat) : Bytes :=
  riff ++ leBytes 4 (36 + pcm.length) ++ wave ++ fmt ++ leBytes 4 16 ++ leBytes 2 1 ++ leBytes 2 1 ++
    leBytes 4 sampleRate ++ leBytes 4 (2 * sampleRate) ++ leBytes 2 2 ++ leBytes 2 16

def wavBytes (pcm : Bytes) (sampleRate : Nat) : Bytes :=
  wavFront pcm sampleRate ++ (dataId ++ (leBytes 4 pcm.length ++ pcm))

section roundtrip
variable {pcm : Bytes} {sampleRate : Nat}

theorem pcm16leToWav_ok (hsize : pcm.length + 36 < 2 ^ 32) (hrate : 2 * sampleRate < 2 ^ 32) :
    pcm16leToWav pcm sampleRate = .ok (wavBytes pcm sampleRate) := by
  have htotal : packUnsigned 4 (36 + (pcm.length : Int)) = .ok (leBytes 4 (36 + pcm.length)) :=
    packUnsigned_natCast (v := 36 + pcm.length) (by omega)
  have hbytes : packUnsigned 4 ((sampleRate : Int) * 1 * 16 / 8) = .ok (leBytes 4 (2 * sampleRate)) := by
    rw [show (sampleRate : Int) * 1 * 16 / 8 = ((2 * sampleRate : Nat) : Int) by omega]
    exact packUnsigned_natCast (by omega)
  have hsamples : packUnsigned 4 (sampleRate : Int) = .ok (leBytes 4 sampleRate) := packUnsigned_natCast (by omega)
  have hdata : packUnsigned 4 (pcm.length : Int) = .ok (leBytes 4 pcm.length) := packUnsigned_natCast (by omega)
  have hfmt : packUnsigned 4 16 = .ok (leBytes 4 16) := rfl
  have hone : packUnsigned 2 1 = .ok (leBytes 2 1) := rfl
  have halign : packUnsigned 2 (1 * 16 / 8) = .ok (leBytes 2 2) := rfl
  have hbits : packUnsigned 2 16 = .ok (leBytes 2 16) := rfl
  unfold pcm16leToWav wavBytes wavFront
  dsimp only
  rw [htotal,hbytes,hsamples,hdata,hfmt,hone,halign,hbits]
  simp only [List.append_assoc]
  rfl

theorem length_wavFront : (wavFront pcm sampleRate).length = 36 := by
  simp [wavFront,riff,wave,fmt]

theorem length_wavBytes : (wavBytes pcm sampleRate).length = 44 + pcm.length := by
  simp only [wavBytes,List.length_append,length_wavFront,dataId,length_leBytes,List.length_cons,List.length_nil]
  omega

theorem isContainer_wavBytes : isContainer (wavBytes pcm sampleRate) = true := by
  have hriff : slice (wavBytes pcm sampleRate) 0 4 = riff := rfl
  have hwave : slice (wavBytes pcm sampleRate) 8 12 = wave := rfl
  have hlen : 12 ≤ (wavBytes pcm sampleRate).length := by rw [length_wavBytes]; omega
  simp [isContainer,hriff,hwave,hlen]

theorem chunkSize_wavBytes (hsize : pcm.length + 36 < 2 ^ 32) :
    chunkSize (wavBytes pcm sampleRate) 36 = pcm.length := by
  have hslice : slice (wavBytes pcm sampleRate) 40 44 = leBytes 4 pcm.length := by
    rw [wavBytes,← List.append_assoc]
    exact slice_middle (by rw [List.length_append,length_wavFront]; rfl) (by rw [length_leBytes])
  rw [chunkSize,hslice,leValue_leBytes (by omega)]

/-- Samples in a container are found again. -/
theorem extractPcm16le_wavBytes (hsize : pcm.length + 36 < 2 ^ 32) :
    extractPcm16le (wavBytes pcm sampleRate) = .ok pcm := by
  have hlen : (wavBytes pcm sampleRate).length = 44 + pcm.length := length_wavBytes
  -- the first chunk is the format, of 16 bytes
  have hfmt : slice (wavBytes pcm sampleRate) 12 16 ≠ dataId := by
    have : slice (wavBytes pcm sampleRate) 12 16 = fmt := rfl
    rw [this]
    decide
  have hskip : chunkSize (wavBytes pcm sampleRate) 12 = 16 := rfl
  have hid : slice (wavBytes pcm sampleRate) 36 40 = dataId := slice_middle length_wavFront.symm rfl
  have hrest : slice (wavBytes pcm sampleRate) 44 (44 + pcm.length) = pcm := by
    have : wavBytes pcm sampleRate = wavFront pcm sampleRate ++ dataId ++ leBytes 4 pcm.length ++ (pcm ++ []) := by
      simp [wavBytes]
    rw [this]
    exact slice_middle (by simp [length_wavFront,dataId]) rfl
  rw [extractPcm16le,if_pos isContainer_wavBytes,walkChunks,if_pos (by omega),unpackFrom_ok (by omega),hskip]
  dsimp only
  rw [if_neg hfmt,walkChunks,if_pos (by omega),unpackFrom_ok (by omega),chunkSize_wavBytes hsize]
  dsimp only
  rw [if_pos hid]
  exact congrArg _ hrest

end roundtrip

/-- Samples whose container can be written are read back from it; and whatever is read, the reader
gives back its input, the data of a chunk of a container, or the one error for a container without. -/
theorem wav_roundtrip_and_extraction :
    (∀ (pcm : Bytes) (sampleRate : Int), pcm.length + 36 < 2 ^ 32 → 0 ≤ sampleRate → 2 * sampleRate < 2 ^ 32 →
      ∃ wav, pcm16leToWav pcm sampleRate = .ok wav ∧ extractPcm16le wav = .ok pcm) ∧
    ∀ audio, Extracted audio (extractPcm16le audio) := by
  refine ⟨fun pcm sampleRate hsize hrate hbytes => ?_,extractPcm16le_extracted⟩
  obtain ⟨rate,rfl⟩ := Int.eq_ofNat_of_zero_le hrate
  exact ⟨_,pcm16leToWav_ok hsize (by omega),extractPcm16le_wavBytes hsize⟩

theorem wav_roundtrip_two :
    ∃ wav, pcm16leToWav [0x01,0x80] 24000 = .ok wav ∧ extractPcm16le wav = .ok [0x01,0x80] :=
  wav_roundtrip_and_extraction.1 [0x01,0x80] 24000 (by decide) (by decide) (by decide)

end VoxForge.Audio
