import VoxForge.Foundation.Bounds
import VoxForge.Foundation.Bytes

/-! Samples of 16 bits with a sign, as `struct` reads and writes them. -/
namespace VoxForge.Audio
open Foundation

inductive SampleError where
  | struct | value | index | zeroDivision
  deriving DecidableEq, Repr

def signed (v : Nat) : Int := if v < 2 ^ 15 then v else v - 2 ^ 16

/-- The samples in whole pairs of bytes. -/
def samplesIn : Bytes → List Int
  | low :: high :: rest => signed (leValue [low,high]) :: samplesIn rest
  | _ => []

/-- `struct.unpack(f"<{len(data) // 2}h", data)`. -/
def unpackSamples (data : Bytes) : Except SampleError (List Int) :=
  if data.length = 2 * (data.length / 2) then .ok (samplesIn data) else .error .struct

def sampleBytes (samples : List Int) : Bytes := samples.flatMap fun v => leBytes 2 (v % 2 ^ 16).toNat

/-- `struct.pack(f"<{len(samples)}h", *samples)`. -/
def packSamples (samples : List Int) : Except SampleError Bytes :=
  if samples.all fun v => -2 ^ 15 ≤ v ∧ v ≤ 2 ^ 15 - 1 then .ok (sampleBytes samples) else .error .struct

theorem signed_bounds {v : Nat} (h : v < 2 ^ 16) : -2 ^ 15 ≤ signed v ∧ signed v ≤ 2 ^ 15 - 1 := by
  unfold signed
  split <;> omega

theorem samplesIn_bounded (data : Bytes) : Bounded (-2 ^ 15) (2 ^ 15 - 1) (samplesIn data) := by
  induction data using samplesIn.induct with
  | case1 low high rest ih =>
    intro v hv
    rcases List.mem_cons.mp hv with rfl | hv
    · have hvalue : leValue [low,high] < 256 ^ 2 := leValue_lt [low,high]
      exact signed_bounds (by omega)
    · exact ih v hv
  | case2 data h =>
    intro v hv
    rw [samplesIn] at hv
    · cases hv
    · exact h

theorem length_samplesIn (data : Bytes) : (samplesIn data).length = data.length / 2 := by
  induction data using samplesIn.induct with
  | case1 low high rest ih => simp only [samplesIn,List.length_cons,ih]; omega
  | case2 data h =>
    rcases data with _ | ⟨low,_ | ⟨high,rest⟩⟩
    · rfl
    · simp [samplesIn]
    · exact absurd rfl (h low high rest)

theorem length_sampleBytes (samples : List Int) : (sampleBytes samples).length = 2 * samples.length := by
  induction samples with
  | nil => rfl
  | cons v rest ih =>
    have hcons : sampleBytes (v :: rest) = leBytes 2 (v % 2 ^ 16).toNat ++ sampleBytes rest := rfl
    rw [hcons,List.length_append,length_leBytes,ih,List.length_cons]
    omega

/-- What is written is read back. -/
theorem samplesIn_sampleBytes {samples : List Int} (h : Bounded (-2 ^ 15) (2 ^ 15 - 1) samples) :
    samplesIn (sampleBytes samples) = samples := by
  induction samples with
  | nil => rfl
  | cons v rest ih =>
    have hv := h v (List.mem_cons_self ..)
    have hvalue : leValue (leBytes 2 (v % 2 ^ 16).toNat) = (v % 2 ^ 16).toNat := leValue_leBytes (by omega)
    have hsigned : signed (v % 2 ^ 16).toNat = v := by
      unfold signed
      split <;> omega
    have hcons : samplesIn (sampleBytes (v :: rest)) =
        signed (leValue (leBytes 2 (v % 2 ^ 16).toNat)) :: samplesIn (sampleBytes rest) := rfl
    rw [hcons,hvalue,hsigned,ih fun w hw => h w (List.mem_cons_of_mem _ hw)]

theorem packSamples_ok {samples : List Int} (h : Bounded (-2 ^ 15) (2 ^ 15 - 1) samples) :
    packSamples samples = .ok (sampleBytes samples) := by
  refine if_pos (List.all_eq_true.mpr fun v hv => ?_)
  exact decide_eq_true (h v hv)

theorem unpackSamples_ok {data : Bytes} {count : Nat} (h : data.length = 2 * count) :
    unpackSamples data = .ok (samplesIn data) := if_pos (by omega)

end VoxForge.Audio
