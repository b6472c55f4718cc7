import KonfirmBackend.Channel.Relay
import KonfirmBackend.Facilitator.SubmissionQueue

/-!
# The critical section of a relayed call

The section of `openChannel` and `closeChannel` is `submitRebuilt`, a function of the answers
it meets, and it is also a section of the submission queue, where the network, the clock and
the other calls decide on the answers. The two agree: what a section of the queue returns is
what the function makes of the answers that the section has met.

## Main definitions

- `hear` — the answers that the running section has met
- `Hearing` — the queue with these answers
- `SectionResult.Reports` — a result is an outcome of `submitRebuilt`
- `Agrees` — a step keeps the section and `submitRebuilt` together

## Main results

- `agrees_of_step` — every step does
- `section_agrees` — every section returns what `submitRebuilt` returns
-/

namespace KonfirmBackend.Facilitator.SubmissionQueue

open Transition
open Channel (SubmissionAnswers Native Poll pollForTransaction submitRebuilt)

variable (hash : ℕ → String) (returnValue : ℕ → Option Native)

/-- What polling for a transaction makes of its status. -/
def pollAnswer (i : ℕ) : TxStatus → Poll
  | .succeeded => .success (returnValue i)
  | .failed => .failed
  | .pending => .inconclusive

/-- Before the first answer. -/
def silence : SubmissionAnswers := ⟨none, false, .threw, .threw, []⟩

/-- The answers that the running section has met once the queue has made a step. -/
def hear (w : World) (heard : SubmissionAnswers) : Action → SubmissionAnswers
  | .start => silence
  | .account answers => { heard with account := if answers then some w.sequence else none }
  | .build succeeds => { heard with builds := succeeds }
  | .sign answer => { heard with
      sign := match answer with
        | .success => .signed
        | .error => .refused
        | .threw => .threw }
  | .send answer => { heard with
      send := match answer with
        | .pending => .pending (hash w.txs.length)
        | .rejected => .rejected
        | .threw _ => .threw }
  | .poll answers =>
    match w.running with
    | some (_, .polling i _ _) =>
      { heard with polls := heard.polls ++ [pollAnswer returnValue i (w.statusOf i answers)] }
    | _ => heard
  | _ => heard

/-- The queue, with the answers that the running section has met. -/
structure Hearing where
  world : World
  heard : SubmissionAnswers

namespace Hearing

def start (clock : ℕ) (sequence : ℤ) : Hearing := ⟨.start clock sequence, silence⟩

def step (x : Hearing) (a : Action) : Option Hearing :=
  (SubmissionQueue.step x.world a).map fun w => ⟨w, hear hash returnValue x.world x.heard a⟩

end Hearing

/-- The result of a section, as a relayed call reads the outcome of its submission. -/
def SectionResult.Reports (result : SectionResult)
    (outcome : Except Channel.Failure (String × Option Native)) : Prop :=
  match result with
  | .success i => outcome = .ok (hash i, returnValue i)
  | .failure errorReason none => outcome = .error (.reason errorReason)
  | .failure errorReason (some i) =>
    errorReason = "transaction_failed" ∧ outcome = .error (.transactionFailed (hash i))

/-- The answers that lead a section to its stage. -/
def Stage.Heard (heard : SubmissionAnswers) : Stage → Prop
  | .fetching => heard.polls = []
  | .fetched sequence | .simulated sequence => heard.account = some sequence ∧ heard.polls = []
  | .built _ => heard.account.isSome ∧ heard.builds ∧ heard.polls = []
  | .signed _ => heard.account.isSome ∧ heard.builds ∧ heard.sign = .signed ∧ heard.polls = []
  | .polling i attempts _ =>
    heard.account.isSome ∧ heard.builds ∧ heard.sign = .signed ∧ heard.send = .pending (hash i) ∧
      ∃ n, n + attempts = 15 ∧ heard.polls = List.replicate n .inconclusive

/-- The running section is where its answers have led it. -/
def Hearing.Sound (x : Hearing) : Prop :=
  ∀ site stage, x.world.running = some (site, stage) → stage.Heard hash x.heard

variable (signer : String) (operation : Channel.Operation) (sorobanData : Channel.SorobanData)

/-- After a step from `x` to `y`, the running section is where its answers have led it; and if
it was that of a relayed call and has ended, it has returned the outcome of its answers. -/
structure Agrees (x y : Hearing) : Prop where
  sound : y.Sound hash
  reports : ∀ site result, y.world.results = x.world.results ++ [(site, result)] →
    site.simulates = false →
    result.Reports hash returnValue (submitRebuilt signer operation sorobanData y.heard).result

variable {hash returnValue signer operation sorobanData} {x y : Hearing} {w : World} {a : Action}
  {site : CallSite} {stage : Stage} {heard : SubmissionAnswers}

/-! ## Outcomes -/

theorem errorReason_of_not_simulates (h : site.simulates = false) (failure : SectionFailure) :
    site.errorReason failure = relayReason failure := by
  cases site with
  | openChannel | closeChannel => rfl
  | checkpointChannel | finalizeCloseChannel | sweep => cases h

/-- Inconclusive polls use up attempts. -/
theorem pollForTransaction_replicate (n attempts : ℕ) (polls : List Poll) :
    pollForTransaction (n + attempts) (List.replicate n .inconclusive ++ polls) =
      pollForTransaction attempts polls := by
  induction n with
  | zero => rw [Nat.zero_add, List.replicate_zero, List.nil_append]
  | succ n ih =>
    rw [Nat.succ_add, List.replicate_succ, List.cons_append]
    exact ih

/-- Once the transaction is on its way, the outcome is that of the polling. -/
theorem submitRebuilt_of_polling {i attempts wakesAt : ℕ} {polls : List Poll}
    (h : (Stage.polling i attempts wakesAt).Heard hash heard) :
    (submitRebuilt signer operation sorobanData { heard with polls := heard.polls ++ polls }).result =
      match pollForTransaction attempts polls with
      | none => .error (.transactionFailed (hash i))
      | some returnValue => .ok (hash i, returnValue) := by
  obtain ⟨haccount, hbuilds, hsign, hsend, n, hn, hpolls⟩ := h
  obtain ⟨sequence, haccount⟩ := Option.isSome_iff_exists.mp haccount
  rw [← pollForTransaction_replicate n attempts polls, hn, ← hpolls]
  cases hpoll : pollForTransaction 15 (heard.polls ++ polls) with
  | none => simp only [submitRebuilt, haccount, hbuilds, hsign, hsend, hpoll]
  | some returnValue => simp only [submitRebuilt, haccount, hbuilds, hsign, hsend, hpoll]

theorem heard_of_readyToBuild {sequence : ℤ} (h : stage.readyToBuild site = some sequence)
    (hstage : stage.Heard hash heard) : heard.account = some sequence ∧ heard.polls = [] := by
  cases stage with
  | fetched sequence' =>
    simp only [Stage.readyToBuild] at h
    split at h
    · cases h
    · cases h
      exact hstage
  | simulated sequence' =>
    cases h
    exact hstage
  | fetching | built | signed | polling => cases h

/-! ## Steps -/

/-- The section goes on, or another call makes a step. -/
theorem agrees_of_goesOn (hresults : y.world.results = x.world.results) (hy : y.Sound hash) :
    Agrees hash returnValue signer operation sorobanData x y := by
  refine ⟨hy, fun site result hadded => ?_⟩
  rw [hresults] at hadded
  simp at hadded

/-- The section ends. -/
theorem agrees_of_ends {result : SectionResult} (hrunning : y.world.running = none)
    (hresults : y.world.results = x.world.results ++ [(site, result)])
    (hreports : site.simulates = false →
      result.Reports hash returnValue (submitRebuilt signer operation sorobanData y.heard).result) :
    Agrees hash returnValue signer operation sorobanData x y where
  sound := by
    intro site stage hsome
    cases hrunning.symm.trans hsome
  reports := by
    intro site' result' hadded
    rw [hresults] at hadded
    obtain ⟨rfl, rfl⟩ : site = site' ∧ result = result' := by simpa using hadded
    exact hreports

/-- The section fails with the reason of the outcome. -/
theorem agrees_of_fail {failure : SectionFailure} (hresults : w.results = x.world.results)
    (hreports : (submitRebuilt signer operation sorobanData heard).result =
      .error (.reason (relayReason failure))) :
    Agrees hash returnValue signer operation sorobanData x ⟨w.fail site failure, heard⟩ := by
  apply agrees_of_ends rfl
  · show w.results ++ _ = _
    rw [hresults]
  · intro hsite
    show _ = _
    rw [hreports, errorReason_of_not_simulates hsite]

theorem agrees_of_account {answers : Bool} (hx : x.Sound hash)
    (hw : step x.world (.account answers) = some w) :
    Agrees hash returnValue signer operation sorobanData x
      ⟨w, hear hash returnValue x.world x.heard (.account answers)⟩ := by
  simp only [step] at hw
  split at hw
  · rename_i site hrunning
    have hpolls : x.heard.polls = [] := hx site _ hrunning
    cases hw
    cases answers with
    | true =>
      refine agrees_of_goesOn rfl ?_
      rintro site stage ⟨⟩
      exact ⟨rfl, hpolls⟩
    | false => exact agrees_of_fail rfl rfl
  · cases hw

/-- Only the sections of other calls simulate. -/
theorem agrees_of_simulate {answer : CallAnswer} (hx : x.Sound hash)
    (hw : step x.world (.simulate answer) = some w) :
    Agrees hash returnValue signer operation sorobanData x
      ⟨w, hear hash returnValue x.world x.heard (.simulate answer)⟩ := by
  simp only [step] at hw
  split at hw
  · rename_i site sequence hrunning
    split at hw
    · rename_i hsimulates
      have hheard := hx site _ hrunning
      cases hw
      cases answer with
      | success =>
        refine agrees_of_goesOn rfl ?_
        rintro site stage ⟨⟩
        exact hheard
      | error | threw =>
        apply agrees_of_ends rfl rfl
        intro hsite
        cases hsimulates.symm.trans hsite
    · cases hw
  · cases hw

theorem agrees_of_build {succeeds : Bool} (hx : x.Sound hash)
    (hw : step x.world (.build succeeds) = some w) :
    Agrees hash returnValue signer operation sorobanData x
      ⟨w, hear hash returnValue x.world x.heard (.build succeeds)⟩ := by
  obtain ⟨⟨site, stage⟩, hrunning, hw⟩ := Option.bind_eq_some_iff.mp hw
  obtain ⟨sequence, hready, rfl⟩ := Option.map_eq_some_iff.mp hw
  obtain ⟨haccount, hpolls⟩ := heard_of_readyToBuild hready (hx site _ hrunning)
  cases succeeds with
  | true =>
    refine agrees_of_goesOn rfl ?_
    rintro site stage ⟨⟩
    exact ⟨by simp [hear, haccount], rfl, hpolls⟩
  | false =>
    apply agrees_of_fail rfl
    simp [hear, submitRebuilt, haccount, relayReason]

theorem agrees_of_sign {answer : CallAnswer} (hx : x.Sound hash)
    (hw : step x.world (.sign answer) = some w) :
    Agrees hash returnValue signer operation sorobanData x
      ⟨w, hear hash returnValue x.world x.heard (.sign answer)⟩ := by
  simp only [step] at hw
  split at hw
  · rename_i site envelope hrunning
    obtain ⟨haccount, hbuilds, hpolls⟩ := hx site _ hrunning
    obtain ⟨sequence, hsequence⟩ := Option.isSome_iff_exists.mp haccount
    cases hw
    cases answer with
    | success =>
      refine agrees_of_goesOn rfl ?_
      rintro site stage ⟨⟩
      exact ⟨haccount, hbuilds, rfl, hpolls⟩
    | error | threw =>
      apply agrees_of_fail rfl
      simp [hear, submitRebuilt, hsequence, hbuilds, relayReason]
  · cases hw

/-- When the call throws, it does not matter whether the network has the transaction. -/
theorem agrees_of_send {answer : SendAnswer} (hx : x.Sound hash)
    (hw : step x.world (.send answer) = some w) :
    Agrees hash returnValue signer operation sorobanData x
      ⟨w, hear hash returnValue x.world x.heard (.send answer)⟩ := by
  simp only [step] at hw
  split at hw
  · rename_i site envelope hrunning
    obtain ⟨haccount, hbuilds, hsign, hpolls⟩ := hx site _ hrunning
    obtain ⟨sequence, hsequence⟩ := Option.isSome_iff_exists.mp haccount
    cases hw
    cases answer with
    | pending =>
      refine agrees_of_goesOn rfl ?_
      rintro site stage ⟨⟩
      exact ⟨haccount, hbuilds, hsign, rfl, 0, rfl, hpolls⟩
    | rejected =>
      apply agrees_of_fail rfl
      simp [hear, submitRebuilt, hsequence, hbuilds, hsign, relayReason]
    | threw received =>
      cases received with
      | true | false =>
        apply agrees_of_fail
        · rfl
        · simp [hear, submitRebuilt, hsequence, hbuilds, hsign, relayReason]
  · cases hw

theorem agrees_of_poll {answers : Bool} (hx : x.Sound hash)
    (hw : step x.world (.poll answers) = some w) :
    Agrees hash returnValue signer operation sorobanData x
      ⟨w, hear hash returnValue x.world x.heard (.poll answers)⟩ := by
  simp only [step] at hw
  split at hw
  · rename_i site i attempts wakesAt hrunning
    split at hw
    · have hheard := hx site _ hrunning
      have hnext : hear hash returnValue x.world x.heard (.poll answers) =
          { x.heard with polls := x.heard.polls ++
              [pollAnswer returnValue i (x.world.statusOf i answers)] } := by
        rw [hear, hrunning]
      rw [hnext]
      cases hw
      cases hstatus : x.world.statusOf i answers with
      | succeeded =>
        apply agrees_of_ends rfl rfl
        intro hsite
        exact submitRebuilt_of_polling hheard
      | failed =>
        apply agrees_of_ends rfl rfl
        intro hsite
        exact ⟨errorReason_of_not_simulates hsite _, submitRebuilt_of_polling hheard⟩
      | pending =>
        refine agrees_of_goesOn rfl ?_
        rintro site stage ⟨⟩
        -- one more inconclusive answer, one attempt less
        obtain ⟨haccount, hbuilds, hsign, hsend, n, hn, hpolls⟩ := hheard
        refine ⟨haccount, hbuilds, hsign, hsend, n + 1, by omega, ?_⟩
        rw [hpolls, List.replicate_succ']
        rfl
    · cases hw
  · cases hw

theorem agrees_of_giveUp (hx : x.Sound hash) (hw : step x.world .giveUp = some w) :
    Agrees hash returnValue signer operation sorobanData x
      ⟨w, hear hash returnValue x.world x.heard .giveUp⟩ := by
  simp only [step] at hw
  split at hw
  · rename_i site i wakesAt hrunning
    split at hw
    · cases hw
      apply agrees_of_ends rfl rfl
      intro hsite
      refine ⟨errorReason_of_not_simulates hsite _, ?_⟩
      have hgivenUp : (submitRebuilt signer operation sorobanData
          { x.heard with polls := x.heard.polls ++ [] }).result = _ :=
        submitRebuilt_of_polling (hx site _ hrunning)
      rw [List.append_nil] at hgivenUp
      exact hgivenUp
    · cases hw
  · cases hw

/-- What a step of the queue does to the running section, it does to `submitRebuilt`. -/
theorem agrees_of_step (hx : x.Sound hash) (h : x.step hash returnValue a = some y) :
    Agrees hash returnValue signer operation sorobanData x y := by
  obtain ⟨w, hw, rfl⟩ := Option.map_eq_some_iff.mp h
  cases a with
  | account answers => exact agrees_of_account hx hw
  | simulate answer => exact agrees_of_simulate hx hw
  | build succeeds => exact agrees_of_build hx hw
  | sign answer => exact agrees_of_sign hx hw
  | send answer => exact agrees_of_send hx hw
  | poll answers => exact agrees_of_poll hx hw
  | giveUp => exact agrees_of_giveUp hx hw
  | start =>
    simp only [step] at hw
    split at hw
    · cases hw
      refine agrees_of_goesOn rfl ?_
      rintro site stage ⟨⟩
      rfl
    · cases hw
  | call site =>
    cases hw
    exact agrees_of_goesOn rfl hx
  | ledger i succeeds =>
    obtain ⟨tx, hi, hw⟩ := Option.bind_eq_some_iff.mp hw
    split at hw
    · cases hw
      exact agrees_of_goesOn rfl hx
    · cases hw
  | tick ms =>
    cases hw
    exact agrees_of_goesOn rfl hx

/-- Whatever the network, the clock and the other calls do: the section of `openChannel` or
`closeChannel` is at every step where `submitRebuilt` is with the answers that it has met, and
returns what `submitRebuilt` makes of them. -/
theorem section_agrees (clock : ℕ) (sequence : ℤ) (ls : List Action) :
    ∀ e ∈ trace (Hearing.step hash returnValue) (.start clock sequence) ls,
      Agrees hash returnValue signer operation sorobanData e.1 e.2.2 := by
  rintro ⟨x, a, y⟩ he
  obtain ⟨hreach, -, hstep⟩ := reaches_of_mem_trace (fun _ _ => trivial) he
  have hstart : (Hearing.start clock sequence).Sound hash := by
    rintro site stage ⟨⟩
  have hsteps : ∀ x a y, Hearing.Sound hash x → x.step hash returnValue a = some y →
      Agrees hash returnValue signer operation sorobanData x y := fun _ _ _ => agrees_of_step
  have hx : x.Sound hash :=
    hreach.invariant hstart fun _ _ _ _ hx hs => (hsteps _ _ _ hx hs).sound
  exact hsteps _ _ _ hx hstep

/-- The first poll finds nothing. A call of the sweep waits in the meantime. -/
def exampleRelay : List Action :=
  [.call .openChannel, .start, .account true, .build true, .sign .success, .call .sweep,
    .send .pending, .poll false, .ledger 0 true, .tick 1000, .poll true]

theorem section_agrees_example :
    ∃ e ∈ trace (Hearing.step (fun _ => "hash") fun _ => some (.bigint 1)) (.start 0 41)
        exampleRelay,
      e.2.2.world.waiting = [.sweep] ∧
      ∀ operation ∈ (Channel.exampleOpening "GPAYER" (.address "GPAYER")).operations,
        (submitRebuilt "GFACILITATOR" operation ⟨"data", 94813⟩ e.2.2.heard).result =
          .ok ("hash", some (.bigint 1)) := by
  obtain ⟨e, he, hresults, hwaiting⟩ :
      ∃ e ∈ trace (Hearing.step (fun _ => "hash") fun _ => some (.bigint 1)) (.start 0 41)
        exampleRelay, e.2.2.world.results = e.1.world.results ++ [(.openChannel, .success 0)] ∧
          e.2.2.world.waiting = [.sweep] := by
    decide +kernel
  exact ⟨e, he, hwaiting, fun operation _ =>
    (section_agrees 0 41 exampleRelay e he).reports _ _ hresults rfl⟩

end KonfirmBackend.Facilitator.SubmissionQueue
