import VoxForge.Agents.Graph
import VoxForge.Foundation.Strategies

/-! The verdicts of the safety model and of the critic: what their nodes make of any text. -/
namespace VoxForge.Agents
open Foundation Core

inductive Reviewer where
  | safety | critic
  deriving DecidableEq, Repr

namespace Reviewer

def agent : Reviewer → Agent
  | safety => .safety
  | critic => .critic

/-- The field that holds the verdict. -/
def key : Reviewer → String
  | safety => "passed"
  | critic => "approved"

def textKey : Reviewer → String
  | safety => "reason"
  | critic => "feedback"

/-- What the node writes as its verdict. -/
def verdict (update : Update) : Reviewer → Option Bool
  | safety => update.safetyPassed
  | critic => update.criticApproved

end Reviewer

section verdicts
variable (config : GraphConfig)

/-- A model that gives one response; there are no tools. -/
def answering (response : AIMessage) : (o : Op) → Unit → Except GraphError o.Reply × Unit
  | .ainvoke .. => fun _ => (.ok response,())
  | .execute .. => fun _ => (.error (.raised "no tools"),())
  | .getLangchainTools => fun _ => (.ok [],())
  | .bindTools _ => fun _ => (.ok (),())

/-- The node of a reviewer whose model gives a response. -/
def reviewed (reviewer : Reviewer) (s : OrchestratorState) (response : AIMessage) : Except GraphError Update :=
  (Prog.exec (answering response) (node config reviewer.agent s) ()).1

/-- Somewhere in the text stands a JSON object with `true` under a key. -/
def HoldsTrue (key text : String) : Prop :=
  ∃ part entries, part.toList <:+: text.toList ∧
    JsonDecoder.loads config.recursionLimit part = .ok (.obj entries) ∧ entries.lookup key = some (.bool true)

/-- The node returns with a verdict, and passes only text that holds the verdict `true`. -/
def FailsSafe (reviewer : Reviewer) (text : String) : Prop :=
  ∀ (s : OrchestratorState) (response : AIMessage), contentOf config response = text →
    ∃ update, reviewed config reviewer s response = .ok update ∧
      (reviewer.verdict update = some true ∧ HoldsTrue config reviewer.key text ∨
        reviewer.verdict update = some false)

/-- The text is read as an object whose field counts as false, or what is read does not raise and
the verdict `true` stands somewhere. -/
def Decided (reviewer : Reviewer) (text : String) : Prop :=
  (∃ entries v, JsonDecoder.loads config.recursionLimit (unfence text) = .ok (.obj entries) ∧
    entries.lookup reviewer.key = some v ∧ v.truthy = false) ∨
  (((∃ entries, JsonDecoder.loads config.recursionLimit (unfence text) = .ok (.obj entries)) ∨
    JsonDecoder.loads config.recursionLimit (unfence text) = .error .decodeError) ∧
    HoldsTrue config reviewer.key text)

variable {config} {reviewer : Reviewer} {s : OrchestratorState} {response : AIMessage}

theorem reviewOf_obj {entries : List (String × Json)} (verdictKey textKey : String)
    (h : parseJson config (contentOf config response) = .ok (.obj entries)) :
    reviewOf config verdictKey textKey response =
      .ok (((entries.lookup verdictKey).getD (.bool true)).truthy,
        ((entries.lookup textKey).getD (.str "")).text config.render) := by
  unfold reviewOf
  rw [h]
  rfl

/-- A review is read only from an object. -/
theorem obj_of_reviewOf {verdictKey textKey : String} {review : Bool × String}
    (h : reviewOf config verdictKey textKey response = .ok review) :
    ∃ entries, parseJson config (contentOf config response) = .ok (.obj entries) := by
  obtain ⟨parsed,hparsed,hverdict⟩ := bind_eq_ok.mp h
  obtain ⟨verdict,hentry,-⟩ := bind_eq_ok.mp hverdict
  cases parsed with
  | obj entries => exact ⟨entries,hparsed⟩
  | _ => cases hentry

/-- What the nodes write after a review. -/
def updateOf (s : OrchestratorState) : Reviewer → Bool × String → Update
  | .safety,(passed,reason) => {
      safetyPassed := some passed
      safetyReason := some reason
      finalResponse := if passed then none else some refusal
      agentTrace := [traceStep "safety" (if passed then "completed" else "blocked")
        (if reason ≠ "" then reason else "passed")] }
  | .critic,(approved,feedback) => {
      criticApproved := some approved
      criticFeedback := some feedback
      iteration := some (s.iteration + if approved then 0 else 1)
      agentTrace := [criticStep approved feedback] }

theorem reviewed_eq : reviewed config reviewer s response =
    (reviewOf config reviewer.key reviewer.textKey response).map (updateOf s reviewer) := by
  unfold reviewed
  cases reviewer with
  | safety =>
    change (Prog.exec _ (safety config s) ()).1 = _
    unfold safety invokeModel
    rw [Prog.exec_bind,Prog.exec_perform]
    change (Prog.exec _ (lift (reviewOf config "passed" "reason" response) >>= _) ()).1 =
      (reviewOf config "passed" "reason" response).map _
    cases reviewOf config "passed" "reason" response <;> rfl
  | critic =>
    change (Prog.exec _ (critic config s) ()).1 = _
    unfold critic invokeModel
    rw [Prog.exec_bind,Prog.exec_perform]
    change (Prog.exec _ (lift (reviewOf config "approved" "feedback" response) >>= _) ()).1 =
      (reviewOf config "approved" "feedback" response).map _
    cases reviewOf config "approved" "feedback" response <;> rfl

theorem verdict_updateOf (review : Bool × String) : reviewer.verdict (updateOf s reviewer review) = some review.1 := by
  cases reviewer <;> rfl

/-- A node returns exactly where an object is read, with the truth value of its field. -/
theorem reviewed_iff (p : Option Bool → Prop) :
    (∃ update, reviewed config reviewer s response = .ok update ∧ p (reviewer.verdict update)) ↔
      ∃ entries, parseJson config (contentOf config response) = .ok (.obj entries) ∧
        p (some ((entries.lookup reviewer.key).getD (.bool true)).truthy) := by
  rw [reviewed_eq]
  constructor
  · rintro ⟨update,hupdate,hp⟩
    obtain ⟨review,hreview,rfl⟩ := map_eq_ok.mp hupdate
    obtain ⟨entries,hentries⟩ := obj_of_reviewOf hreview
    rw [reviewOf_obj _ _ hentries] at hreview
    obtain rfl := Except.ok.inj hreview
    rw [verdict_updateOf] at hp
    exact ⟨entries,hentries,hp⟩
  · rintro ⟨entries,hentries,hp⟩
    rw [reviewOf_obj _ _ hentries]
    exact ⟨_,rfl,by rwa [verdict_updateOf]⟩

theorem parseJson_eq_obj {text : String} {entries : List (String × Json)} :
    parseJson config text = .ok (.obj entries) ↔
      JsonDecoder.loads config.recursionLimit (unfence text) = .ok (.obj entries) ∨
      JsonDecoder.loads config.recursionLimit (unfence text) = .error .decodeError ∧ entries = [] := by
  unfold parseJson
  cases JsonDecoder.loads config.recursionLimit (unfence text) with
  | ok v => simp
  | error e => cases e <;> simp [eq_comm]

/-- A reviewer fails safe on a text exactly if it is decided. -/
theorem failsSafe_iff (config : GraphConfig) (reviewer : Reviewer) (text : String) :
    FailsSafe config reviewer text ↔ Decided config reviewer text := by
  have hread : FailsSafe config reviewer text ↔ ∃ entries, parseJson config text = .ok (.obj entries) ∧
      (((entries.lookup reviewer.key).getD (.bool true)).truthy = true ∧ HoldsTrue config reviewer.key text ∨
        ((entries.lookup reviewer.key).getD (.bool true)).truthy = false) := by
    have hnode (s : OrchestratorState) (response : AIMessage) := @reviewed_iff config reviewer s response fun verdict =>
        verdict = some true ∧ HoldsTrue config reviewer.key text ∨ verdict = some false
    simp only [Option.some.injEq] at hnode
    constructor
    · intro h
      exact (hnode { messages := [], userInput := "" } { content := .str text }).mp (h _ _ rfl)
    · rintro h s response rfl
      exact (hnode s response).mpr h
  rw [hread]
  unfold Decided
  constructor
  · rintro ⟨entries,hparse,hverdict⟩
    rcases parseJson_eq_obj.mp hparse with hobject | ⟨hnone,rfl⟩
    · rcases hverdict with ⟨-,hholds⟩ | hfalse
      · exact .inr ⟨.inl ⟨entries,hobject⟩,hholds⟩
      · cases hlookup : entries.lookup reviewer.key with
        | none =>
          rw [hlookup] at hfalse
          cases hfalse
        | some v => exact .inl ⟨entries,v,hobject,hlookup,by simpa [hlookup] using hfalse⟩
    · exact .inr ⟨.inr hnone,(hverdict.resolve_right (by simp [Json.truthy])).2⟩
  · rintro (⟨entries,v,hobject,hlookup,hfalse⟩ | ⟨hread,hholds⟩)
    · exact ⟨entries,parseJson_eq_obj.mpr (.inl hobject),.inr (by simpa [hlookup] using hfalse)⟩
    · have hparse : ∃ entries, parseJson config text = .ok (.obj entries) := by
        rcases hread with ⟨entries,hobject⟩ | hnone
        · exact ⟨entries,parseJson_eq_obj.mpr (.inl hobject)⟩
        · exact ⟨[],parseJson_eq_obj.mpr (.inr ⟨hnone,rfl⟩)⟩
      obtain ⟨entries,hentries⟩ := hparse
      refine ⟨entries,hentries,?_⟩
      cases htruth : ((entries.lookup reviewer.key).getD (.bool true)).truthy with
      | true => exact .inl ⟨rfl,hholds⟩
      | false => exact .inr rfl

theorem mem_of_mem_strip {text : String} {c : Char} (h : c ∈ (strip text).toList) : c ∈ text.toList := by
  unfold strip at h
  rw [String.toList_ofList] at h
  exact (List.dropWhile_suffix _).subset ((List.rdropWhile_prefix _ _).subset h)

/-- Plain text, with no brace and no fence, is never decided: it passes, or it raises. -/
theorem not_failsSafe_of_plain {text : String} (hbrace : '\x7b' ∉ text.toList)
    (hfence : Char.ofNat 0x60 ∉ text.toList) : ¬ FailsSafe config reviewer text := by
  have hunfence : unfence text = strip text := by
    have hprefix : ¬ "\x60\x60\x60".toList.isPrefixOf (strip text).toList = true := fun h =>
      hfence (mem_of_mem_strip ((List.isPrefixOf_iff_prefix.mp h).subset (by decide)))
    rw [unfence,if_neg hprefix]
  rw [failsSafe_iff]
  rintro (⟨entries,v,hobject,-⟩ | ⟨-,part,entries,hpart,hobject,-⟩)
  · rw [hunfence] at hobject
    exact hbrace (mem_of_mem_strip (JsonDecoder.loads_obj hobject))
  · exact hbrace (hpart.subset (JsonDecoder.loads_obj hobject))

def bareGraph : GraphConfig where
  maxAgentIterations := 3
  maxToolIterations := 5
  toolsEnabled := false
  toolRouter := none
  recursionLimit := 1000
  render _ := ""
  parseUuid _ := none

/-- The safety model objects, in words. -/
theorem objection_passes : ¬ FailsSafe bareGraph .safety "UNSAFE: this asks for another customer's card number." :=
  not_failsSafe_of_plain (by decide) (by decide)

/-- A blocking verdict ends the graph with the refusal. -/
theorem safety_blocks {update : Update} (h : reviewed config .safety s response = .ok update)
    (hblocked : update.safetyPassed = some false) :
    (s.merge update).finalResponse = refusal ∧ routeAfterSafety (s.merge update) = .coordinator := by
  rw [reviewed_eq] at h
  obtain ⟨⟨passed,reason⟩,-,rfl⟩ := map_eq_ok.mp h
  obtain rfl : passed = false := Option.some.inj hblocked
  exact ⟨rfl,rfl⟩

end verdicts
end VoxForge.Agents
