import VoxForge.Pipeline.Interruption

/-! Turns that nobody interrupts: the sentence loop of `_process_turn` asks the synthesis for
exactly the sentences of `token_stream_to_sentences`, or the turn reports an error. -/
namespace VoxForge.Pipeline.VoicePipelineService
open Foundation Core Persistence Sessions Handoffs HandoffOrchestrator Prog SentenceBuffer

/-- What a turn has given out. -/
structure Delivery where
  /-- The tokens given to `on_token`. -/
  tokens : List String := []
  requested : List String := []
  /-- The assistant's messages, as rows. -/
  rows : List String := []
  /-- A check has found the event set, or an error was reported. -/
  disturbed : Bool := false
  deriving DecidableEq, Repr

def Delivery.after (d : Delivery) : (o : TurnOp) → Except Err (TurnReply o) → Delivery
  | .inr .interruptSet,.ok (set : Bool) => { d with disturbed := d.disturbed || set }
  | .inr (.onError _ _),_ => { d with disturbed := true }
  | .inr (.onToken text),_ => { d with tokens := d.tokens ++ [text] }
  | .inr (.synthesizeStream sentence),_ => { d with requested := d.requested ++ [sentence] }
  | .inl (.insertMessage ⟨.assistant,text⟩),_ => { d with rows := d.rows ++ [text] }
  | _,_ => d

def deliveries : Discipline TurnOp TurnReply Err Delivery where
  allowed _ _ := True
  possible _ _ := True
  after := Delivery.after

def delivered (events : List (Prog.Event TurnOp TurnReply Err)) : Delivery := deliveries.follow {} events

/-- What returns has been disturbed, or a condition holds of it. -/
def Undisturbed {α : Type} (q : Delivery → α → Prop) : Delivery → Except Err α → Prop :=
  returns fun d a => d.disturbed = true ∨ q d a

section rules
variable {α β : Type} {d : Delivery} {mid : Delivery → α → Prop} {q : Delivery → β → Prop}

theorem after_disturbed (h : d.disturbed = true) (o : TurnOp) (r : Except Err (TurnReply o)) :
    (d.after o r).disturbed = true := by
  unfold Delivery.after
  split <;> simp [h]

/-- Whatever comes, a disturbed turn stays one. -/
theorem wp_disturbed (h : d.disturbed = true) (p : Awaits β) : wp deliveries d p (Undisturbed q) := by
  have hkeeps : Keeps deliveries (fun d => d.disturbed = true) p :=
    keeps_of_performs (performs_any p) fun o _ _ hd => ⟨trivial,fun r _ => after_disturbed hd o r⟩
  apply wp_mono (hkeeps d h)
  intro d' r hd
  cases r with
  | ok a => exact .inl hd
  | error e => trivial

theorem undisturbed_then {p : Awaits α} {f : α → Awaits β} (hp : wp deliveries d p (Undisturbed mid))
    (hf : ∀ d a, mid d a → wp deliveries d (f a) (Undisturbed q)) : wp deliveries d (p >>= f) (Undisturbed q) := by
  refine wp_then hp fun d a ha => ?_
  rcases ha with hdisturbed | hmid
  · exact wp_disturbed hdisturbed (f a)
  · exact hf d a hmid

theorem undisturbed_attempt {p : Awaits α} {f : Except Err α → Awaits β} (hp : wp deliveries d p (Undisturbed mid))
    (herror : ∀ d e, wp deliveries d (f (.error e)) (Undisturbed q))
    (hok : ∀ d a, mid d a → wp deliveries d (f (.ok a)) (Undisturbed q)) :
    wp deliveries d (attempt p >>= f) (Undisturbed q) := by
  rw [wp_bind]
  refine (wp_tryCatch _ _ _).mpr ((wp_bind _ _ _).mpr (wp_mono hp fun d r hr => ?_))
  cases r with
  | error e => exact herror d e
  | ok a =>
    rcases hr with hdisturbed | hmid
    · exact wp_disturbed hdisturbed (f (.ok a))
    · exact hok d a hmid

theorem wp_await (c : Callee) :
    wp deliveries d (await c) (Undisturbed fun d' a => d' = d.after (.inr c) (.ok a)) := by
  refine (wp_perform _ _).mpr ⟨trivial,fun r _ => ?_⟩
  cases r with
  | ok a => exact .inr rfl
  | error e => trivial

theorem after_look (d : Delivery) : d.after (.inr .interruptSet) (.ok false) = d := by
  simp [Delivery.after]

/-- A check that finds the event unset is as if it were not made. -/
theorem undisturbed_look {f : Bool → Awaits β} (h : wp deliveries d (f false) (Undisturbed q)) :
    wp deliveries d (await .interruptSet >>= f) (Undisturbed q) := by
  refine undisturbed_then (wp_await .interruptSet) fun d' set hset => ?_
  cases set with
  | true =>
    have hfound : d'.disturbed = true := by
      rw [hset]
      exact Bool.or_true _
    exact wp_disturbed hfound _
  | false =>
    rw [hset,after_look]
    exact h

/-- Operations of a kind that gives nothing out. -/
theorem undisturbed_silent {P : TurnOp → Prop} {p : Awaits β} (hp : Performs P p)
    (h : ∀ o, P o → ∀ (d : Delivery) (r : Except Err (TurnReply o)),
      d.after o r = d ∨ (d.after o r).disturbed = true) :
    wp deliveries d p (Undisturbed fun d' _ => d' = d) := by
  have hkeeps : Keeps deliveries (fun d' => d'.disturbed = true ∨ d' = d) p := by
    refine keeps_of_performs hp fun o d' ho hd => ⟨trivial,fun r _ => ?_⟩
    rcases hd with hdisturbed | rfl
    · exact .inl (after_disturbed hdisturbed o r)
    · exact (h o ho d' r).symm
  apply wp_mono (hkeeps d (.inr rfl))
  intro d' r hd
  cases r with
  | ok a => exact hd
  | error e => trivial

theorem after_aside {o : TurnOp} (h : Aside o) (d : Delivery) (r : Except Err (TurnReply o)) :
    d.after o r = d ∨ (d.after o r).disturbed = true := by
  rcases o with o | o
  · cases o with
    | insertMessage message =>
      obtain ⟨role,text⟩ := message
      cases role <;> first | exact absurd rfl h | exact .inl rfl
    | _ => exact .inl rfl
  · cases o <;> first | exact h.elim | exact .inl rfl | exact .inr rfl

theorem undisturbed_aside {p : Awaits β} (hp : Performs Aside p) :
    wp deliveries d p (Undisturbed fun d' _ => d' = d) :=
  undisturbed_silent hp fun _ => after_aside

end rules

/-! The speech -/

/-- The tokens that a generator's events hold. -/
def textsOf (events : List GenerationEvent) : List String := (events.map (·.text)).filter (· ≠ "")

section speech
variable {settings : HandoffOrchestrator.Settings} {turn : TurnRequest} {d : Delivery}

theorem synthesize_whole (sentence : String) (n : Nat) :
    wp deliveries d (synthesize sentence n) (Undisturbed fun d' said => said = .whole ∧ d' = d) := by
  induction n with
  | zero => exact .inr ⟨rfl,rfl⟩
  | succ n ih =>
    apply undisturbed_look
    rw [if_neg Bool.false_ne_true]
    refine undisturbed_then (wp_await .onAudio) fun _ _ haudio => ?_
    subst haudio
    refine undisturbed_then (wp_await (.nextChunk sentence)) fun _ _ hchunk => ?_
    subst hchunk
    exact ih

theorem say_whole (sentence : String) : wp deliveries d (say sentence) (Undisturbed fun d' said =>
    said = .whole ∧ d' = { d with requested := d.requested ++ [sentence] }) := by
  apply undisturbed_look
  rw [if_neg Bool.false_ne_true]
  refine undisturbed_then (wp_await (.synthesizeStream sentence)) fun _ chunks hstream => ?_
  subst hstream
  exact synthesize_whole sentence chunks

theorem produce_silent (event : GenerationEvent) :
    wp deliveries d (produce settings turn event) (Undisturbed fun d' _ => d' = d) := by
  have htools : Performs Ordinary (runTools settings turn.orgId event.tools) :=
    composed_runTools (compositional_performs Ordinary) ordinary_initiateHandoff _ _
  refine undisturbed_then (undisturbed_aside (performs_statements htools fun _ => aside_ordinary)) fun _ _ h => ?_
  subst h
  refine undisturbed_then (undisturbed_aside (aside_reportSteps event.agentSteps)) fun _ _ h => ?_
  subst h
  exact wp_await .nextEvent

/-- What the rest of a stream leaves: its tokens heard and its sentences asked for. -/
structure Spoke (buffer : List Char) (texts : List String) (speech : Speech) (d d' : Delivery) (speech' : Speech) :
    Prop where
  ends : (tokenStreamToSentences buffer texts).2 = none
  given : d' = { d with
    tokens := d.tokens ++ texts
    requested := d.requested ++ (tokenStreamToSentences buffer texts).1 }
  text : speech'.text.toList = speech.text.toList ++ joined texts
  told : speech'.interrupted = speech.interrupted

theorem of_raised {e : Err} {p : Prop} (h : some e = none) : p := absurd h (Option.some_ne_none e)

theorem sayRest_spoke (buffer : List Char) (speech : Speech) :
    wp deliveries d (sayRest buffer speech) (Undisturbed fun d' said => said.2 = none →
      Spoke buffer [] speech d d' said.1) := by
  unfold sayRest
  cases hflush : flush buffer with
  | none =>
    refine .inr fun _ => ⟨rfl,?_,by simp [joined],rfl⟩
    simp [tokenStreamToSentences,hflush]
  | some sentence =>
    refine undisturbed_attempt (say_whole sentence) (fun _ e => .inr of_raised) fun _ said hsaid => .inr fun _ => ?_
    obtain ⟨rfl,rfl⟩ := hsaid
    refine ⟨rfl,?_,by simp [joined,Speech.note],by simp [Speech.note]⟩
    simp [tokenStreamToSentences,hflush]

theorem textsOf_cons (event : GenerationEvent) (rest : List GenerationEvent) :
    textsOf (event :: rest) = if event.text = "" then textsOf rest else event.text :: textsOf rest := by
  unfold textsOf
  rw [List.map_cons,List.filter_cons]
  by_cases hempty : event.text = "" <;> simp [hempty]

section token
variable {buffer held : List Char} {token : String} {texts : List String} {speech speech' : Speech} {d' : Delivery}

/-- A token that stays in the buffer. -/
theorem Spoke.hold (hadd : add buffer token = (.ok none,held))
    (h : Spoke held texts (speech.hear token) { d with tokens := d.tokens ++ [token] } d' speech') :
    Spoke buffer (token :: texts) speech d d' speech' := by
  have hstream : tokenStreamToSentences buffer (token :: texts) = tokenStreamToSentences held texts := by
    rw [tokenStreamToSentences,hadd]
  refine ⟨hstream ▸ h.ends,?_,?_,h.told⟩
  · rw [hstream,h.given]
    simp
  · rw [h.text]
    simp [Speech.hear,joined]

/-- A token that lets out a sentence, which has been said. -/
theorem Spoke.letOut {sentence : String} (hadd : add buffer token = (.ok (some sentence),held))
    (h : Spoke held texts (speech.hear token) { d with
      tokens := d.tokens ++ [token]
      requested := d.requested ++ [sentence] } d' speech') :
    Spoke buffer (token :: texts) speech d d' speech' := by
  have hstream : tokenStreamToSentences buffer (token :: texts) =
      (sentence :: (tokenStreamToSentences held texts).1,(tokenStreamToSentences held texts).2) := by
    rw [tokenStreamToSentences,hadd]
  refine ⟨hstream ▸ h.ends,?_,?_,h.told⟩
  · rw [hstream,h.given]
    simp
  · rw [h.text]
    simp [Speech.hear,joined]

end token

attribute [local irreducible] flush in
/-- The sentence loop against the stream, token by token. -/
theorem converse_spoke (events : List GenerationEvent) (buffer : List Char) (speech : Speech) :
    wp deliveries d (converse settings turn events buffer speech) (Undisturbed fun d' said => said.2 = none →
      Spoke buffer (textsOf events) speech d d' said.1) := by
  induction events generalizing buffer speech d with
  | nil =>
    refine undisturbed_attempt (wp_await .nextEvent) (fun _ e => .inr of_raised) fun _ _ h => ?_
    subst h
    apply sayRest_spoke
  | cons event rest ih =>
    refine undisturbed_attempt (produce_silent event) (fun _ e => .inr of_raised) fun _ _ h => ?_
    subst h
    apply undisturbed_look
    rw [if_neg Bool.false_ne_true,textsOf_cons]
    by_cases hempty : event.text = ""
    · rw [if_pos hempty,if_pos hempty]
      exact ih buffer speech
    rw [if_neg hempty,if_neg hempty]
    refine undisturbed_attempt (wp_await (.onToken event.text)) (fun _ e => .inr of_raised) fun _ _ h => ?_
    subst h
    dsimp only
    rcases hadd : add buffer event.text with ⟨e | _ | sentence,held⟩
    · exact .inr of_raised
    · apply wp_returns_mono (ih held _)
      rintro d' said (hdisturbed | hspoke)
      · exact .inl hdisturbed
      · exact .inr fun hnone => (hspoke hnone).hold hadd
    · refine undisturbed_attempt (say_whole sentence) (fun _ e => .inr of_raised) fun _ said hsaid => ?_
      obtain ⟨rfl,rfl⟩ := hsaid
      apply wp_returns_mono (ih held _)
      rintro d' said (hdisturbed | hspoke)
      · exact .inl hdisturbed
      · refine .inr fun hnone => Spoke.letOut hadd ?_
        have hnote : (speech.hear event.text).note .whole = speech.hear event.text := by simp [Speech.note]
        exact hnote ▸ hspoke hnone

/-- Generation and synthesis: an exception is raised or reported. -/
theorem respond_spoke : wp deliveries d (respond settings turn) (Undisturbed fun d' speech =>
    Spoke [] (textsOf turn.events) {} d d' speech) := by
  refine undisturbed_then (converse_spoke turn.events [] {}) fun d' said hsaid => ?_
  match said with
  | (speech,none) => exact .inr (hsaid rfl)
  | (speech,some e) =>
    have hreported : wp deliveries d' (await (.onError "tts_error" "Speech synthesis failed") >>= fun _ =>
        (pure speech : Awaits Speech))
        (Undisturbed fun d' speech => Spoke [] (textsOf turn.events) {} d d' speech) := by
      refine undisturbed_then (wp_await _) fun d'' _ herror => wp_disturbed ?_ _
      rw [herror]
      rfl
    cases e <;> first | exact hreported | trivial

end speech

/-! The turn -/

section turn
variable {settings : HandoffOrchestrator.Settings} {wiring : Wiring} {turn : TurnRequest} {d : Delivery}

/-- The row of an answer, if there is one. -/
def rowOf (text : String) : List String := if text = "" then [] else [text]

theorem insert_row (text : String) : wp deliveries d (statements (execute (.insertMessage ⟨.assistant,text⟩)))
    (Undisturbed fun d' _ => d' = { d with rows := d.rows ++ [text] }) := by
  refine wp_inl.mpr ((wp_perform _ _).mpr ⟨trivial,fun r _ => ?_⟩)
  cases r with
  | ok u => exact .inr rfl
  | error e => trivial

theorem saveAnswer_row (text : String) : wp deliveries d (saveAnswer wiring turn text)
    (Undisturbed fun d' _ => d' = { d with rows := d.rows ++ rowOf text }) := by
  unfold saveAnswer rowOf
  by_cases hempty : text = ""
  · rw [if_neg (not_not_intro hempty),if_pos hempty,List.append_nil]
    exact .inr rfl
  rw [if_pos hempty,if_neg hempty]
  refine undisturbed_then (undisturbed_aside (performs_discard (performs_await trivial))) fun _ _ h => ?_
  subst h
  refine undisturbed_then (wp_await (.addAssistantMessage text)) fun _ _ h => ?_
  subst h
  refine undisturbed_then (insert_row text) fun _ _ h => ?_
  subst h
  exact undisturbed_aside (performs_remember (fun _ _ => trivial) _ _)

/-- What reports a speech gives nothing out. -/
theorem undisturbed_reports {α : Type} {speech : Speech} {p : Awaits α} (hp : Performs (Reports speech) p) :
    wp deliveries d p (Undisturbed fun d' _ => d' = d) := by
  refine undisturbed_silent hp ?_
  rintro o (haside | rfl | rfl | rfl) d r
  · exact after_aside haside d r
  · exact .inl rfl
  · exact .inl rfl
  · exact .inl rfl

/-- What an undisturbed turn has given out in the end. -/
structure Told (texts : List String) (d : Delivery) : Prop where
  ends : (tokenStreamToSentences [] texts).2 = none
  tokens : d.tokens = texts
  requested : d.requested = (tokenStreamToSentences [] texts).1
  rows : d.rows = rowOf (String.ofList (joined texts))

/-- What follows a delivery and gives nothing out. -/
theorem undisturbed_end {q : Delivery → Prop} {p : Awaits Unit} (hd : q d)
    (hp : wp deliveries d p (Undisturbed fun d' _ => d' = d)) : wp deliveries d p (Undisturbed fun d' _ => q d') := by
  apply wp_returns_mono hp
  rintro d' _ (hdisturbed | rfl)
  · exact .inl hdisturbed
  · exact .inr hd

theorem answer_told : wp deliveries {} (answer settings wiring turn)
    (Undisturbed fun d _ => Told (textsOf turn.events) d) := by
  have hconfig : Performs Aside (discard (statements SessionManager.getSessionConfig)) :=
    performs_discard (aside_own own_getSessionConfig)
  refine undisturbed_then (undisturbed_aside hconfig) fun _ _ h => ?_
  rw [h]
  refine undisturbed_then respond_spoke fun d speech hspoke => ?_
  refine undisturbed_then (saveAnswer_row speech.text) fun _ _ h => ?_
  rw [h]
  refine undisturbed_end ?_ (@undisturbed_reports _ _ speech _ ?_)
  · have htext : speech.text = String.ofList (joined (textsOf turn.events)) := by
      rw [← String.ofList_toList (s := speech.text),hspoke.text]
      rfl
    rw [hspoke.given]
    exact ⟨hspoke.ends,rfl,rfl,congrArg rowOf htext⟩
  · apply performs_bind (reports_aside (performs_await (c := .saveTurnMetrics) trivial))
    intro _
    apply performs_bind reports_evaluate
    intro _
    apply performs_bind reports_escalate
    intro _
    dsimp only
    split
    · exact performs_bind (performs_await (.inr (.inr (.inr rfl)))) fun _ => performs_await (.inl trivial)
    · exact performs_await (.inl trivial)

variable (settings wiring turn) in
theorem processTurn_told : wp deliveries {} (processTurn settings wiring turn)
    (Undisturbed fun d _ => Told (textsOf turn.events) d) := by
  have hphase (phase : SessionPhase) :
      Performs Aside (discard (statements (StateStore.updatePhase settings.toSettings phase))) :=
    performs_discard (aside_own (own_updatePhase _))
  refine undisturbed_then (undisturbed_aside (hphase .processing)) fun _ _ h => ?_
  rw [h]
  refine undisturbed_then (undisturbed_aside aside_prepare) fun _ _ h => ?_
  rw [h]
  refine undisturbed_then (undisturbed_aside (hphase .speaking)) fun _ _ h => ?_
  rw [h]
  refine undisturbed_then answer_told fun d _ htold => ?_
  refine undisturbed_end htold (undisturbed_aside ?_)
  apply performs_bind (performs_await (c := .onMetrics) trivial)
  intro _
  apply performs_bind (performs_discard (aside_own own_clearInterrupt))
  intro _
  exact hphase .listening

/-- A turn that returns has given out its stream: each token, each of the stream's sentences as
one request, and one row with all of the text. Otherwise it was interrupted, or has reported that
the speech failed. -/
theorem turn_says_its_stream (settings : HandoffOrchestrator.Settings) (wiring : Wiring) (turn : TurnRequest)
    (answers : Strategy TurnOp TurnReply Err) {events : List (Prog.Event TurnOp TurnReply Err)}
    (hrun : play answers (processTurn settings wiring turn) = (.ok (),events)) :
    (delivered events).disturbed = true ∨ Told (textsOf turn.events) (delivered events) := by
  have hplay := (wp_play answers (fun _ _ => trivial) (processTurn_told settings wiring turn)).2
  rw [hrun] at hplay
  exact hplay

def twoSentences : Except Err Unit × List (Prog.Event TurnOp TurnReply Err) :=
  play Conversation.smooth (processTurn {} {} (spoken [{ text := "Hi. By" },{ text := "e." }]))

theorem twoSentences_told : twoSentences.1 = .ok () ∧ (delivered twoSentences.2).requested = ["Hi.","Bye."] ∧
    Told ["Hi. By","e."] (delivered twoSentences.2) := by
  have hreturns : twoSentences.1 = .ok () := by decide +kernel
  have hcalm : ¬(delivered twoSentences.2).disturbed = true := by decide +kernel
  have hrun : play Conversation.smooth (processTurn {} {} (spoken [{ text := "Hi. By" },{ text := "e." }])) =
      (.ok (),twoSentences.2) := Prod.ext hreturns rfl
  exact ⟨hreturns,by decide +kernel,(turn_says_its_stream {} {} _ Conversation.smooth hrun).resolve_left hcalm⟩

end turn
end VoxForge.Pipeline.VoicePipelineService
