import Mathlib.Algebra.Order.Ring.Rat
import Mathlib.Algebra.Order.Floor.Semifield
import Mathlib.Data.Rat.Floor
import Mathlib.Tactic.Linarith
import Mathlib.Tactic.Positivity
import VoxForge.Audio.Samples
import VoxForge.Foundation.Fallible

/-! Frames of any rate and number of channels as the samples of the voice pipeline. -/
namespace VoxForge.Audio
open Foundation

def pipelineSampleRate : Nat := 16000

/-- `range(0, length, step)`. -/
def positions (length step : Nat) : List Nat := (List.range ((length + step - 1) / step)).map (· * step)

/-- Each group of samples becomes its mean, rounded down. -/
def downmix (samples : List Int) (channels : Nat) : Except SampleError (List Int) :=
  if channels = 0 then .error .value
  else .ok ((positions samples.length channels).map fun i => (slice samples i (i + channels)).sum / channels)

/-- `samples[::step]`. -/
def everyNth (samples : List Int) (step : Nat) : Except SampleError (List Int) :=
  if step = 0 then .error .value else .ok ((positions samples.length step).filterMap (samples[·]?))

/-- One sample of the output, between the two of the input next to it. -/
def interpolate (samples : List Int) (ratio : ℚ) (i : Nat) : Except SampleError Int :=
  let srcIdx : ℚ := i / ratio
  let left := (towardZero srcIdx).toNat
  let right := min (left + 1) (samples.length - 1)
  let frac := srcIdx - left
  match samples[left]?,samples[right]? with
  | some a,some b => .ok (towardZero (a * (1 - frac) + b * frac))
  | _,_ => .error .index

def toMono (data : Bytes) (channels : Nat) : Except SampleError Bytes :=
  if channels = 1 then .ok data
  else do packSamples (← downmix (← unpackSamples data) channels)

def resampleMono (data : Bytes) (srcRate dstRate : Nat) : Except SampleError Bytes :=
  if dstRate = 0 then .error .zeroDivision
  else if srcRate % dstRate = 0 then do packSamples (← everyNth (← unpackSamples data) (srcRate / dstRate))
  else do
    let ratio : ℚ := dstRate / srcRate
    let samples ← unpackSamples data
    let outLen := (towardZero (samples.length * ratio)).toNat
    if outLen = 0 then .ok [] else packSamples (← (List.range outLen).mapM (interpolate samples ratio))

def resamplePcm16 (data : Bytes) (srcRate dstRate channels : Nat) : Except SampleError Bytes :=
  if srcRate = dstRate then .ok data
  else do resampleMono (← toMono data channels) srcRate dstRate

def frameToPipelinePcm (frameData : Bytes) (sampleRate channels : Nat) : Except SampleError Bytes :=
  resamplePcm16 frameData sampleRate pipelineSampleRate channels

/-- How many samples some groups of samples become. -/
def resampledCount (groups srcRate dstRate : Nat) : Nat :=
  if srcRate % dstRate = 0 then (groups + srcRate / dstRate - 1) / (srcRate / dstRate) else groups * dstRate / srcRate

/-- A result without an exception, of so many samples between the bounds of those of the input. -/
def Resampled (data : Bytes) (count : Nat) (result : Except SampleError Bytes) : Prop :=
  ∃ pcm, result = .ok pcm ∧ pcm.length = 2 * count ∧ Within (samplesIn pcm) (samplesIn data)

section positions
variable {length step i : Nat}

theorem length_positions : (positions length step).length = (length + step - 1) / step := by simp [positions]

theorem lt_of_mem_positions (hstep : 0 < step) (h : i ∈ positions length step) : i < length := by
  obtain ⟨k,hk,rfl⟩ := List.mem_map.mp h
  rw [List.mem_range,Nat.lt_iff_add_one_le,Nat.le_div_iff_mul_le hstep,Nat.add_one_mul] at hk
  omega

end positions

section steps
variable {samples : List Int}

theorem packSamples_within {data : Bytes} (h : Within samples (samplesIn data)) {count : Nat}
    (hcount : samples.length = count) : Resampled data count (packSamples samples) := by
  have hbounded := h (samplesIn_bounded data)
  refine ⟨_,packSamples_ok hbounded,by rw [length_sampleBytes,hcount],?_⟩
  rwa [samplesIn_sampleBytes hbounded]

/-- The mean of a group is between the bounds of all samples. -/
theorem downmix_ok (samples : List Int) {channels : Nat} (hchannels : 0 < channels) :
    ∃ mono, downmix samples channels = .ok mono ∧ mono.length = (samples.length + channels - 1) / channels ∧
      (samples.length % channels = 0 → Within mono samples) := by
  refine ⟨_,if_neg hchannels.ne',by rw [List.length_map,length_positions],fun hwhole lo hi hbounded v hv => ?_⟩
  obtain ⟨i,hmem,rfl⟩ := List.mem_map.mp hv
  have hlt := lt_of_mem_positions hchannels hmem
  obtain ⟨k,-,rfl⟩ := List.mem_map.mp hmem
  have hlength : (slice samples (k * channels) (k * channels + channels)).length = channels := by
    obtain ⟨groups,hgroups⟩ := Nat.dvd_of_mod_eq_zero hwhole
    have hgroup : k * channels + channels ≤ samples.length := by
      rw [hgroups,Nat.mul_comm channels] at hlt ⊢
      rw [← Nat.add_one_mul]
      exact Nat.mul_le_mul_right _ (Nat.lt_of_mul_lt_mul_right hlt)
    rw [slice,List.length_take,List.length_drop]
    omega
  have hsub : Bounded lo hi (slice samples (k * channels) (k * channels + channels)) := fun v hv =>
    hbounded v (List.mem_of_mem_drop (List.mem_of_mem_take hv))
  have := hsub.sum_ediv (List.ne_nil_of_length_pos (by omega))
  rwa [hlength] at this

theorem everyNth_ok (samples : List Int) {step : Nat} (hstep : 0 < step) :
    ∃ kept, everyNth samples step = .ok kept ∧ kept.length = (samples.length + step - 1) / step ∧ Within kept samples := by
  refine ⟨_,if_neg hstep.ne',?_,.of_subset fun v hv => ?_⟩
  · rw [← length_positions,List.length_filterMap_eq_countP,List.countP_eq_length]
    intro i hi
    rw [List.getElem?_eq_getElem (lt_of_mem_positions hstep hi)]
    rfl
  · obtain ⟨i,-,hi⟩ := List.mem_filterMap.mp hv
    exact List.mem_of_getElem? hi

/-- Each sample of the output has two in the input beside it, and is between them. -/
theorem interpolate_ok {ratio : ℚ} (hratio : 0 < ratio) {i : Nat} (hi : (i : ℚ) < samples.length * ratio) :
    ∃ v, interpolate samples ratio i = .ok v ∧ ∀ lo hi, Bounded lo hi samples → lo ≤ v ∧ v ≤ hi := by
  have hnonneg : 0 ≤ (i : ℚ) / ratio := div_nonneg (Nat.cast_nonneg i) hratio.le
  have hleft : (towardZero ((i : ℚ) / ratio)).toNat = ⌊(i : ℚ) / ratio⌋₊ := by
    rw [towardZero_of_nonneg hnonneg,Int.floor_toNat]
  have hin : ⌊(i : ℚ) / ratio⌋₊ < samples.length := (Nat.floor_lt hnonneg).mpr ((div_lt_iff₀ hratio).mpr hi)
  have hright : min (⌊(i : ℚ) / ratio⌋₊ + 1) (samples.length - 1) < samples.length := by omega
  have hfrac : 0 ≤ (i : ℚ) / ratio - ⌊(i : ℚ) / ratio⌋₊ := sub_nonneg.mpr (Nat.floor_le hnonneg)
  have hfrac' : (i : ℚ) / ratio - ⌊(i : ℚ) / ratio⌋₊ ≤ 1 := by
    have := Nat.lt_floor_add_one ((i : ℚ) / ratio)
    linarith only [this]
  have hok : interpolate samples ratio i = .ok (towardZero
      ((samples[⌊(i : ℚ) / ratio⌋₊] : ℚ) * (1 - ((i : ℚ) / ratio - ⌊(i : ℚ) / ratio⌋₊)) +
        (samples[min (⌊(i : ℚ) / ratio⌋₊ + 1) (samples.length - 1)] : ℚ) * ((i : ℚ) / ratio - ⌊(i : ℚ) / ratio⌋₊))) := by
    rw [interpolate,hleft,List.getElem?_eq_getElem hin,List.getElem?_eq_getElem hright]
  refine ⟨_,hok,fun lo hi hbounded => ?_⟩
  have hcast : ∀ v ∈ samples, (lo : ℚ) ≤ v ∧ (v : ℚ) ≤ hi := fun v hv => by exact_mod_cast hbounded v hv
  have hbetween := interpolated_between (hcast _ (List.getElem_mem hin)) (hcast _ (List.getElem_mem hright)) hfrac hfrac'
  exact towardZero_between hbetween.1 hbetween.2

/-- The length of the output: the rounded product with the ratio. -/
theorem outLen_eq (n srcRate dstRate : Nat) :
    (towardZero ((n : ℚ) * ((dstRate : ℚ) / srcRate))).toNat = n * dstRate / srcRate := by
  have hnonneg : 0 ≤ (n : ℚ) * ((dstRate : ℚ) / srcRate) := by positivity
  rw [towardZero_of_nonneg hnonneg,Int.floor_toNat,← Nat.floor_div_eq_div (K := ℚ),Nat.cast_mul,mul_div_assoc]

end steps

section frames
variable {data : Bytes} {count srcRate dstRate channels : Nat}

theorem toMono_ok (hchannels : 0 < channels) (hdata : data.length = 2 * (channels * count)) :
    Resampled data count (toMono data channels) := by
  unfold toMono
  split
  · next hone =>
    rw [hone,Nat.one_mul] at hdata
    exact ⟨data,rfl,hdata,.refl _⟩
  · obtain ⟨mono,hmono,hlength,hwithin⟩ := downmix_ok (samplesIn data) hchannels
    have hsamples : (samplesIn data).length = channels * count := by rw [length_samplesIn]; omega
    rw [unpackSamples_ok hdata]
    change Resampled data count (downmix (samplesIn data) channels >>= packSamples)
    rw [hmono]
    refine packSamples_within (hwithin ?_) ?_
    · rw [hsamples,Nat.mul_mod_right]
    · rw [hlength,hsamples,Nat.add_sub_assoc hchannels,Nat.mul_add_div hchannels,
        Nat.div_eq_of_lt (by omega),Nat.add_zero]

theorem resampleMono_ok (hsrc : 0 < srcRate) (hdst : 0 < dstRate) (hdata : data.length = 2 * count) :
    Resampled data (resampledCount count srcRate dstRate) (resampleMono data srcRate dstRate) := by
  have hsamples : (samplesIn data).length = count := by rw [length_samplesIn]; omega
  unfold resampleMono resampledCount
  rw [if_neg hdst.ne',unpackSamples_ok hdata]
  split
  · next hmultiple =>
    have hstep : 0 < srcRate / dstRate := Nat.div_pos (Nat.le_of_dvd hsrc (Nat.dvd_of_mod_eq_zero hmultiple)) hdst
    obtain ⟨kept,hkept,hlength,hwithin⟩ := everyNth_ok (samplesIn data) hstep
    change Resampled data _ (everyNth (samplesIn data) (srcRate / dstRate) >>= packSamples)
    rw [hkept]
    exact packSamples_within hwithin (by rw [hlength,hsamples])
  · have hratio : (0 : ℚ) < (dstRate : ℚ) / srcRate := by positivity
    change Resampled data _ (if (towardZero (((samplesIn data).length : ℚ) * ((dstRate : ℚ) / srcRate))).toNat = 0 then
      .ok [] else (List.range (towardZero (((samplesIn data).length : ℚ) * ((dstRate : ℚ) / srcRate))).toNat).mapM
        (interpolate (samplesIn data) ((dstRate : ℚ) / srcRate)) >>= packSamples)
    rw [outLen_eq,hsamples]
    split
    · next hnone => exact ⟨[],rfl,by rw [hnone]; rfl,fun _ _ _ v hv => by cases hv⟩
    · obtain ⟨out,hout,hlength,hall⟩ := mapM_ok_of_forall
        (f := interpolate (samplesIn data) ((dstRate : ℚ) / srcRate)) (l := List.range (count * dstRate / srcRate))
        fun i hi => interpolate_ok hratio (by
          rw [← outLen_eq,towardZero_of_nonneg (by positivity),Int.floor_toNat,List.mem_range] at hi
          rw [hsamples]
          exact Nat.lt_of_lt_floor hi)
      rw [hout]
      refine packSamples_within (fun lo hi hbounded v hv => hall v hv lo hi hbounded) ?_
      rw [hlength,List.length_range]

theorem Resampled.of_within {first : Bytes} {result : Except SampleError Bytes} (h : Resampled data count result)
    (hdata : Within (samplesIn data) (samplesIn first)) : Resampled first count result := by
  obtain ⟨pcm,hpcm,hlength,hwithin⟩ := h
  exact ⟨pcm,hpcm,hlength,hwithin.trans hdata⟩

/-- Any other rate is resampled, after the groups have become single samples. -/
theorem resamplePcm16_ok (hsrc : 0 < srcRate) (hdst : 0 < dstRate) (hne : srcRate ≠ dstRate) (hchannels : 0 < channels)
    (hdata : data.length = 2 * (channels * count)) :
    Resampled data (resampledCount count srcRate dstRate) (resamplePcm16 data srcRate dstRate channels) := by
  obtain ⟨mono,hmono,hlength,hwithin⟩ := toMono_ok hchannels hdata
  rw [resamplePcm16,if_neg hne,hmono]
  exact (resampleMono_ok hsrc hdst hlength).of_within hwithin

/-- A frame becomes mono samples at the rate of the pipeline exactly when its rate is another, or it has
one channel, or it is empty. -/
theorem frameToPipelinePcm_resampled_iff (hrate : 0 < srcRate) (hchannels : 0 < channels)
    (hdata : data.length = 2 * (channels * count)) :
    Resampled data (resampledCount count srcRate pipelineSampleRate) (frameToPipelinePcm data srcRate channels) ↔
      srcRate ≠ pipelineSampleRate ∨ channels = 1 ∨ count = 0 := by
  have hpipeline : 0 < pipelineSampleRate := by decide
  rw [frameToPipelinePcm]
  by_cases hne : srcRate = pipelineSampleRate
  · -- the samples are returned as they are, whatever the number of channels
    have hcount : resampledCount count srcRate pipelineSampleRate = count := by
      rw [hne,resampledCount,if_pos (Nat.mod_self _),Nat.div_self hpipeline,Nat.add_sub_cancel,Nat.div_one]
    rw [resamplePcm16,if_pos hne,hcount]
    constructor
    · rintro ⟨pcm,hpcm,hlength,-⟩
      obtain rfl := Except.ok.inj hpcm
      have hsame : channels * count = 1 * count := by omega
      rcases Nat.eq_zero_or_pos count with hzero | hpos
      · exact .inr (.inr hzero)
      · exact .inr (.inl (Nat.eq_of_mul_eq_mul_right hpos hsame))
    · intro h
      refine ⟨data,rfl,?_,.refl _⟩
      rcases h with h | rfl | rfl
      · exact absurd hne h
      · rwa [Nat.one_mul] at hdata
      · rwa [Nat.mul_zero] at hdata
  · exact iff_of_true (resamplePcm16_ok hrate hpipeline hne hchannels hdata) (.inl hne)

end frames

/-- Two groups of two channels at three times the rate. -/
theorem frameToPipelinePcm_resampled_stereo :
    Resampled [0x02,0x00,0x04,0x00,0xff,0x7f,0x00,0x80] 1
      (frameToPipelinePcm [0x02,0x00,0x04,0x00,0xff,0x7f,0x00,0x80] 48000 2) :=
  (frameToPipelinePcm_resampled_iff (by decide) (by decide)
    (show [0x02,0x00,0x04,0x00,0xff,0x7f,0x00,0x80].length = 2 * (2 * 2) from rfl)).mpr (.inl (by decide))

/-- A group of two channels at the rate of the pipeline stays two samples. -/
theorem frameToPipelinePcm_stereo :
    frameToPipelinePcm [0x02,0x00,0x04,0x00] 16000 2 = .ok [0x02,0x00,0x04,0x00] ∧
      ¬ Resampled [0x02,0x00,0x04,0x00] 1 (frameToPipelinePcm [0x02,0x00,0x04,0x00] 16000 2) := by
  have hresult : frameToPipelinePcm [0x02,0x00,0x04,0x00] 16000 2 = .ok [0x02,0x00,0x04,0x00] := by
    decide +kernel
  refine ⟨hresult,?_⟩
  rw [hresult]
  rintro ⟨pcm,hpcm,hlength,-⟩
  obtain rfl := Except.ok.inj hpcm
  cases hlength

example : frameToPipelinePcm [0x02,0x00,0x04,0x00,0x08,0x00] 24000 1 = .ok [0x02,0x00,0x06,0x00] := by decide +kernel

end VoxForge.Audio
