import VoxForge.Core.Text
import VoxForge.Foundation.Bytes

/-! Speech from a provider that sends a body of samples in reads of any length. -/
namespace VoxForge.Audio
open Foundation Core

structure AudioChunk where
  data : Bytes
  sampleRate : Nat
  encoding : String
  deriving DecidableEq, Repr

inductive ProviderError where
  | notConfigured
  /-- A status other than 200, with the body of the answer. -/
  | http (status : Nat) (body : Bytes)
  deriving DecidableEq, Repr

/-- An answer of the provider: its status, and the reads in which its body comes. -/
structure Response where
  status : Nat
  reads : List Bytes
  deriving DecidableEq, Repr

def Response.body (response : Response) : Bytes := response.reads.flatten

namespace CartesiaTTSProvider

def audioChunk (data : Bytes) : AudioChunk where
  data := data
  sampleRate := 24000
  encoding := "pcm_s16le"

/-- The loop over the reads, with the byte left over from those before. -/
def alignReads (leftover : Bytes) : List Bytes → List AudioChunk
  | [] => if leftover.length = 1 then [audioChunk (leftover ++ [0])] else []
  | raw :: reads =>
    if raw = [] then alignReads leftover reads
    else
      let data := leftover ++ raw
      let (leftover,data) :=
        if data.length % 2 = 1 then (data.drop (data.length - 1),data.dropLast) else ([],data)
      (if data ≠ [] then [audioChunk data] else []) ++ alignReads leftover reads

def synthesizeText (response : Response) : Except ProviderError (List AudioChunk) :=
  if response.status ≠ 200 then .error (.http response.status response.body)
  else .ok (alignReads [] response.reads)

/-- The answers to the texts that are not blank, one after another, up to one that fails. -/
def synthesizeTexts (respond : String → Response) : List String → List AudioChunk × Option ProviderError
  | [] => ([],none)
  | text :: texts =>
    if strip text = "" then synthesizeTexts respond texts
    else match synthesizeText (respond text) with
      | .error e => ([],some e)
      | .ok chunks =>
        let (rest,failure) := synthesizeTexts respond texts
        (chunks ++ rest,failure)

def synthesizeStream (apiKey : String) (respond : String → Response) (texts : List String) :
    List AudioChunk × Option ProviderError :=
  if apiKey = "" then ([],some .notConfigured) else synthesizeTexts respond texts

end CartesiaTTSProvider
open CartesiaTTSProvider

/-- A body that ends with a whole sample: one zero byte after an odd one. -/
def padded (body : Bytes) : Bytes := body ++ if body.length % 2 = 1 then [0] else []

/-- Chunks of whole samples that hold exactly a body. -/
structure Aligned (body : Bytes) (chunks : List AudioChunk) : Prop where
  even : ∀ chunk ∈ chunks, chunk.data.length % 2 = 0 ∧ 0 < chunk.data.length
  whole : (chunks.flatMap (·.data)) = padded body

section align
variable {leftover : Bytes} {reads : List Bytes}

theorem aligned_append {body rest : Bytes} {chunks : List AudioChunk} (hbody : body.length % 2 = 0)
    (h : Aligned rest chunks) :
    Aligned (body ++ rest) ((if body ≠ [] then [audioChunk body] else []) ++ chunks) := by
  have hpadded : padded (body ++ rest) = body ++ padded rest := by
    unfold padded
    rw [List.append_assoc,List.length_append,show (body.length + rest.length) % 2 = rest.length % 2 by omega]
  split
  · next hne =>
    refine ⟨fun chunk hchunk => ?_,?_⟩
    · rcases List.mem_append.mp hchunk with hchunk | hchunk
      · rw [List.mem_singleton.mp hchunk]
        exact ⟨hbody,List.length_pos_iff.mpr hne⟩
      · exact h.even chunk hchunk
    · rw [List.flatMap_append,h.whole,hpadded,List.flatMap_singleton]
      rfl
  · next hne =>
    obtain rfl : body = [] := not_not.mp hne
    exact h

/-- The loop keeps at most one byte back, and gives out all the others. -/
theorem alignReads_aligned (hleft : leftover.length ≤ 1) :
    Aligned (leftover ++ reads.flatten) (alignReads leftover reads) := by
  induction reads generalizing leftover with
  | nil =>
    rw [List.flatten_nil,List.append_nil,alignReads]
    split
    · next h =>
      refine ⟨fun chunk hchunk => ?_,?_⟩
      · rw [List.mem_singleton.mp hchunk,audioChunk,List.length_append,h]
        decide
      · rw [padded,if_pos (by omega),List.flatMap_singleton]
        rfl
    · next h =>
      obtain rfl : leftover = [] := List.length_eq_zero_iff.mp (by omega)
      exact ⟨by simp,rfl⟩
  | cons raw reads ih =>
    rw [alignReads]
    split
    · next hraw =>
      rw [hraw,List.flatten_cons,List.nil_append]
      exact ih hleft
    · dsimp only
      rw [List.flatten_cons,← List.append_assoc]
      generalize leftover ++ raw = data
      by_cases hodd : data.length % 2 = 1
      · rw [if_pos hodd]
        have hsplit : data = data.dropLast ++ data.drop (data.length - 1) := by
          rw [List.dropLast_eq_take,List.take_append_drop]
        have hrest : Aligned (data.drop (data.length - 1) ++ reads.flatten)
            (alignReads (data.drop (data.length - 1)) reads) := ih (by rw [List.length_drop]; omega)
        have hfront : data.dropLast.length % 2 = 0 := by rw [List.length_dropLast]; omega
        have happend := aligned_append hfront hrest
        rw [← List.append_assoc,← hsplit] at happend
        exact happend
      · rw [if_neg hodd]
        have hrest : Aligned reads.flatten (alignReads [] reads) := ih (by decide : ([] : Bytes).length ≤ 1)
        exact aligned_append (by omega) hrest

theorem aligned_reads (reads : List Bytes) : Aligned reads.flatten (alignReads [] reads) :=
  alignReads_aligned (by decide : ([] : Bytes).length ≤ 1)

/-- The chunks of a body are whole samples, hold it exactly, and its split into reads does not matter. -/
theorem synthesizeText_aligned (response : Response) (hstatus : response.status = 200) :
    ∃ chunks, synthesizeText response = .ok chunks ∧ Aligned response.body chunks ∧
      ∀ other : Response, other.status = 200 → other.body = response.body →
        ∃ others, synthesizeText other = .ok others ∧ others.flatMap (·.data) = chunks.flatMap (·.data) := by
  have haligned (r : Response) : Aligned r.body (alignReads [] r.reads) := aligned_reads r.reads
  have hok (r : Response) (hr : r.status = 200) : synthesizeText r = .ok (alignReads [] r.reads) :=
    if_neg (not_not.mpr hr)
  refine ⟨_,hok response hstatus,haligned response,fun other hother hbody => ⟨_,hok other hother,?_⟩⟩
  rw [(haligned other).whole,(haligned response).whole,hbody]

theorem synthesizeText_aligned_odd :
    ∃ chunks, synthesizeText ⟨200,[[1],[],[2,3,4],[5]]⟩ = .ok chunks ∧ Aligned [1,2,3,4,5] chunks :=
  have ⟨chunks,hchunks,haligned,_⟩ := synthesizeText_aligned ⟨200,[[1],[],[2,3,4],[5]]⟩ rfl
  ⟨chunks,hchunks,haligned⟩

/-- A stream of texts gives out the bodies of all answers, each made whole. -/
theorem synthesizeTexts_whole (respond : String → Response) (texts : List String)
    (hstatus : ∀ text ∈ texts, (respond text).status = 200) :
    (synthesizeTexts respond texts).2 = none ∧
      (∀ chunk ∈ (synthesizeTexts respond texts).1, chunk.data.length % 2 = 0 ∧ 0 < chunk.data.length) ∧
      (synthesizeTexts respond texts).1.flatMap (·.data) =
        (texts.filter (strip · ≠ "")).flatMap fun text => padded (respond text).body := by
  induction texts with
  | nil => exact ⟨rfl,by simp [synthesizeTexts],rfl⟩
  | cons text texts ih =>
    obtain ⟨hnone,heven,hwhole⟩ := ih fun t ht => hstatus t (List.mem_cons_of_mem _ ht)
    rw [synthesizeTexts]
    split
    · next hblank =>
      rw [List.filter_cons_of_neg (by simpa using hblank)]
      exact ⟨hnone,heven,hwhole⟩
    · next hblank =>
      have hok : synthesizeText (respond text) = .ok (alignReads [] (respond text).reads) :=
        if_neg (not_not.mpr (hstatus text (List.mem_cons_self ..)))
      have haligned : Aligned (respond text).body (alignReads [] (respond text).reads) :=
        aligned_reads (respond text).reads
      rw [hok,List.filter_cons_of_pos (by simpa using hblank)]
      dsimp only
      refine ⟨hnone,fun chunk hchunk => ?_,?_⟩
      · rcases List.mem_append.mp hchunk with hchunk | hchunk
        · exact haligned.even chunk hchunk
        · exact heven chunk hchunk
      · rw [List.flatMap_append,haligned.whole,hwhole,List.flatMap_cons]

end align
end VoxForge.Audio
