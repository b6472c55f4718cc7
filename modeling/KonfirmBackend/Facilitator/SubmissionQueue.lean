import KonfirmBackend.Lib.Transition
import Mathlib.Data.Int.Notation

/-!
# The facilitator's submission queue

Every transaction of the facilitator goes through `withFacilitatorSubmissionLock`, a queue
of critical sections that run one after the other: fetch the account's sequence number,
build, sign, send, poll. The polling gives up after fifteen waits of a second, the network
may take a transaction for a minute. A section may then end with its transaction open.

## Main definitions

- `CallSite.errorReason` — how a section of each call reports its failures
- `World` — the queue, the running section, and the transactions on their way
- `step` — one step of a call, of the section or of the network
- `OneUnresolved` — a sequence number is fetched only when nothing is open
- `GivenUpFinal` — the transactions that sections have given up on are final by then

## Main results

- `move_of_step` — every step is one of the cases
- `World.Sound.step` — what is open belongs to the running section, or was given up
- `one_unresolved_iff` — in which runs there is at most one open transaction
-/

namespace KonfirmBackend.Facilitator.SubmissionQueue

open Transition

/-- The calls that submit transactions of the facilitator. -/
inductive CallSite
  | openChannel
  | closeChannel
  | checkpointChannel
  | finalizeCloseChannel
  | sweep
deriving DecidableEq

/-- How a critical section fails; `timedOut` is the end of the polling. -/
inductive SectionFailure
  | threw
  | simulation
  | signing
  | submission
  | transaction
  | timedOut
deriving DecidableEq

/-- The reasons of `submitFacilitatorCall`. -/
def facilitatorCallReason (logLabel : String) : SectionFailure → String
  | .threw => logLabel ++ "_failed"
  | .simulation => logLabel ++ "_simulation_failed"
  | .signing => logLabel ++ "_signing_failed"
  | .submission => logLabel ++ "_submission_failed"
  | .transaction | .timedOut => logLabel ++ "_transaction_failed"

/-- The reasons of the two calls that relay a client's transaction. -/
def relayReason : SectionFailure → String
  | .threw | .submission => "submission_failed"
  | .simulation => "simulation_failed"
  | .signing => "signing_failed"
  | .transaction | .timedOut => "transaction_failed"

/-- The reasons of `submitTransfer`, which tells a transaction that has failed from one that
it has heard nothing of. -/
def transferReason : SectionFailure → String
  | .transaction => "transaction_failed"
  | .timedOut => "transaction_timeout"
  | failure => facilitatorCallReason "sweep" failure

namespace CallSite

def errorReason : CallSite → SectionFailure → String
  | .openChannel | .closeChannel => relayReason
  | .checkpointChannel => facilitatorCallReason "checkpoint"
  | .finalizeCloseChannel => facilitatorCallReason "finalize_close"
  | .sweep => transferReason

/-- The section simulates the call; the other two have done so before they take the lock. -/
def simulates : CallSite → Bool
  | .openChannel | .closeChannel => false
  | .checkpointChannel | .finalizeCloseChannel | .sweep => true

end CallSite

/-- What identifies a transaction to the network: its sequence number, and the time, in
seconds, until which it may be included. -/
structure Envelope where
  sequence : ℤ
  maxTime : ℕ
deriving DecidableEq

/-- Where the running section is. `polling` holds the transaction, the attempts left and the
time of the next one. -/
inductive Stage
  | fetching
  | fetched (sequence : ℤ)
  | simulated (sequence : ℤ)
  | built (envelope : Envelope)
  | signed (envelope : Envelope)
  | polling (transaction attempts wakesAt : ℕ)
deriving DecidableEq

inductive TxStatus
  | pending
  | succeeded
  | failed
deriving DecidableEq

/-- A transaction that the network has received. -/
structure Tx where
  site : CallSite
  envelope : Envelope
  status : TxStatus
deriving DecidableEq

/-- What a section returns. -/
inductive SectionResult
  | success (transaction : ℕ)
  | failure (errorReason : String) (transaction : Option ℕ)
deriving DecidableEq

/-- `clock` is in milliseconds, `sequence` is that of the facilitator's account on chain.
`givenUp` are the transactions whose section has ended without an answer that settles them. -/
structure World where
  clock : ℕ
  sequence : ℤ
  waiting : List CallSite
  running : Option (CallSite × Stage)
  txs : List Tx
  givenUp : List ℕ
  results : List (CallSite × SectionResult)
deriving DecidableEq

inductive CallAnswer
  | success
  | error
  | threw
deriving DecidableEq

/-- The answer to `sendTransaction`. When the call throws, the network may have the
transaction all the same. -/
inductive SendAnswer
  | pending
  | rejected
  | threw (received : Bool)
deriving DecidableEq

inductive Action
  /-- a call reaches `withFacilitatorSubmissionLock` -/
  | call (site : CallSite)
  /-- the section that is first in the queue starts -/
  | start
  | account (answers : Bool)
  | simulate (answer : CallAnswer)
  | build (succeeds : Bool)
  | sign (answer : CallAnswer)
  | send (answer : SendAnswer)
  /-- `getTransaction` tells what has become of the transaction, or it is not found yet -/
  | poll (answers : Bool)
  /-- the wait after the last attempt is over -/
  | giveUp
  /-- the network includes a transaction, which succeeds or fails -/
  | ledger (i : ℕ) (succeeds : Bool)
  | tick (ms : ℕ)
deriving DecidableEq

/-- The transaction is settled, or its time is over. -/
def Tx.Final (clock : ℕ) (tx : Tx) : Prop :=
  tx.status ≠ .pending ∨ tx.envelope.maxTime < clock / 1000

instance (clock : ℕ) (tx : Tx) : Decidable (tx.Final clock) := inferInstanceAs (Decidable (_ ∨ _))

namespace World

def start (clock : ℕ) (sequence : ℤ) : World := ⟨clock, sequence, [], none, [], [], []⟩

/-- The section returns, and the next one may start. -/
def finish (w : World) (site : CallSite) (result : SectionResult) : World :=
  { w with running := none, results := w.results ++ [(site, result)] }

/-- The section fails before its transaction is known to be on its way. -/
def fail (w : World) (site : CallSite) (failure : SectionFailure) : World :=
  w.finish site (.failure (site.errorReason failure) none)

def advance (w : World) (site : CallSite) (stage : Stage) : World :=
  { w with running := some (site, stage) }

def submit (w : World) (site : CallSite) (envelope : Envelope) : World :=
  { w with txs := w.txs ++ [⟨site, envelope, .pending⟩] }

def abandon (w : World) (i : ℕ) : World := { w with givenUp := w.givenUp ++ [i] }

/-- What `getTransaction` makes of a transaction, if it answers. -/
def statusOf (w : World) (i : ℕ) (answers : Bool) : TxStatus :=
  if answers then ((w.txs[i]?).map Tx.status).getD .pending else .pending

end World

/-- The sequence number with which the section can build its transaction. -/
def Stage.readyToBuild (site : CallSite) : Stage → Option ℤ
  | .fetched sequence => if site.simulates then none else some sequence
  | .simulated sequence => some sequence
  | _ => none

def step (w : World) : Action → Option World
  | .call site => some { w with waiting := w.waiting ++ [site] }
  | .start =>
    match w.running, w.waiting with
    | none, site :: rest => some { w with running := some (site, .fetching), waiting := rest }
    | _, _ => none
  | .account answers =>
    match w.running with
    | some (site, .fetching) =>
      some (if answers then w.advance site (.fetched w.sequence) else w.fail site .threw)
    | _ => none
  | .simulate answer =>
    match w.running with
    | some (site, .fetched sequence) =>
      if site.simulates then
        some <| match answer with
          | .success => w.advance site (.simulated sequence)
          | .error => w.fail site .simulation
          | .threw => w.fail site .threw
      else none
    | _ => none
  | .build succeeds =>
    w.running.bind fun (site, stage) =>
      (stage.readyToBuild site).map fun sequence =>
        if succeeds then w.advance site (.built ⟨sequence + 1, w.clock / 1000 + 60⟩)
        else w.fail site .threw
  | .sign answer =>
    match w.running with
    | some (site, .built envelope) =>
      some <| match answer with
        | .success => w.advance site (.signed envelope)
        | .error => w.fail site .signing
        | .threw => w.fail site .threw
    | _ => none
  | .send answer =>
    match w.running with
    | some (site, .signed envelope) =>
      some <| match answer with
        | .pending => (w.submit site envelope).advance site (.polling w.txs.length 15 w.clock)
        | .rejected => w.fail site .submission
        -- nobody polls for a transaction whose hash the section has not got
        | .threw true => ((w.submit site envelope).abandon w.txs.length).fail site .threw
        | .threw false => w.fail site .threw
    | _ => none
  | .poll answers =>
    match w.running with
    | some (site, .polling i (attempts + 1) wakesAt) =>
      if wakesAt ≤ w.clock then
        some <| match w.statusOf i answers with
          | .succeeded => w.finish site (.success i)
          | .failed => w.finish site (.failure (site.errorReason .transaction) (some i))
          | .pending => w.advance site (.polling i attempts (w.clock + 1000))
      else none
    | _ => none
  | .giveUp =>
    match w.running with
    | some (site, .polling i 0 wakesAt) =>
      if wakesAt ≤ w.clock then
        some ((w.abandon i).finish site (.failure (site.errorReason .timedOut) (some i)))
      else none
    | _ => none
  | .ledger i succeeds =>
    (w.txs[i]?).bind fun tx =>
      -- an account's transactions are included in the order of their sequence numbers
      if ¬tx.Final w.clock ∧ tx.envelope.sequence = w.sequence + 1 then
        some { w with
          sequence := tx.envelope.sequence
          txs := w.txs.set i { tx with status := if succeeds then .succeeded else .failed } }
      else none
  | .tick ms => some { w with clock := w.clock + ms }

/-- The stages between the answer of `getAccount` and that of `sendTransaction`. -/
def Stage.Holds : Stage → Prop
  | .fetched _ | .simulated _ | .built _ | .signed _ => True
  | _ => False

/-- The steps of the queue, by what they do to it. -/
inductive Move (w : World) : Action → World → Prop
  | queued (site : CallSite) : Move w (.call site) { w with waiting := w.waiting ++ [site] }
  | started (site : CallSite) (rest : List CallSite) (hnone : w.running = none) :
      Move w .start { w with running := some (site, .fetching), waiting := rest }
  | fetched (site : CallSite) (hrunning : w.running = some (site, .fetching)) :
      Move w (.account true) (w.advance site (.fetched w.sequence))
  /-- nothing has been submitted -/
  | failed (a : Action) (site : CallSite) (stage : Stage) (failure : SectionFailure)
      (hrunning : w.running = some (site, stage)) (hstage : stage = .fetching ∨ stage.Holds)
      (hfailure : failure = .threw ∨ failure = .signing ∨ failure = .submission ∨
        failure = .simulation ∧ site.simulates) : Move w a (w.fail site failure)
  | advanced (a : Action) (site : CallSite) (stage stage' : Stage)
      (hrunning : w.running = some (site, stage)) (hstage : stage.Holds) (hstage' : stage'.Holds) :
      Move w a (w.advance site stage')
  | submitted (site : CallSite) (envelope : Envelope)
      (hrunning : w.running = some (site, .signed envelope)) :
      Move w (.send .pending)
        ((w.submit site envelope).advance site (.polling w.txs.length 15 w.clock))
  | lost (site : CallSite) (envelope : Envelope)
      (hrunning : w.running = some (site, .signed envelope)) :
      Move w (.send (.threw true))
        (((w.submit site envelope).abandon w.txs.length).fail site .threw)
  | settled (answers : Bool) (site : CallSite) (i attempts wakesAt : ℕ) (result : SectionResult)
      (hrunning : w.running = some (site, .polling i (attempts + 1) wakesAt))
      (hsettled : w.statusOf i answers ≠ .pending)
      (hresult : result = .success i ∨
        result = .failure (site.errorReason .transaction) (some i)) :
      Move w (.poll answers) (w.finish site result)
  | polled (answers : Bool) (site : CallSite) (i attempts wakesAt : ℕ)
      (hrunning : w.running = some (site, .polling i (attempts + 1) wakesAt)) :
      Move w (.poll answers) (w.advance site (.polling i attempts (w.clock + 1000)))
  | gaveUp (site : CallSite) (i wakesAt : ℕ)
      (hrunning : w.running = some (site, .polling i 0 wakesAt)) :
      Move w .giveUp
        ((w.abandon i).finish site (.failure (site.errorReason .timedOut) (some i)))
  | included (i : ℕ) (tx : Tx) (status : TxStatus) (succeeds : Bool) (hi : w.txs[i]? = some tx)
      (hstatus : status ≠ .pending) :
      Move w (.ledger i succeeds)
        { w with sequence := tx.envelope.sequence, txs := w.txs.set i { tx with status := status } }
  | ticked (ms : ℕ) : Move w (.tick ms) { w with clock := w.clock + ms }

variable {w w' : World} {a : Action}

theorem Stage.holds_of_readyToBuild {site : CallSite} {stage : Stage} {sequence : ℤ}
    (h : stage.readyToBuild site = some sequence) : stage.Holds := by
  cases stage with
  | fetched | simulated => trivial
  | fetching | built | signed | polling => cases h

/-- Every step is one of the cases. -/
theorem move_of_step (h : step w a = some w') : Move w a w' := by
  cases a with
  | call site =>
    cases h
    exact .queued site
  | start =>
    simp only [step] at h
    split at h
    · cases h
      exact .started _ _ ‹_›
    · cases h
  | account answers =>
    simp only [step] at h
    split at h
    · rename_i site hrunning
      cases h
      cases answers with
      | true => exact .fetched site hrunning
      | false => exact .failed _ site _ _ hrunning (.inl rfl) (.inl rfl)
    · cases h
  | simulate answer =>
    simp only [step] at h
    split at h
    · rename_i site sequence hrunning
      split at h
      · cases h
        cases answer with
        | success => exact .advanced _ site _ _ hrunning trivial trivial
        | error => exact .failed _ site _ _ hrunning (.inr trivial) (.inr (.inr (.inr ⟨rfl, ‹_›⟩)))
        | threw => exact .failed _ site _ _ hrunning (.inr trivial) (.inl rfl)
      · cases h
    · cases h
  | build succeeds =>
    obtain ⟨⟨site, stage⟩, hrunning, h⟩ := Option.bind_eq_some_iff.mp h
    obtain ⟨sequence, hready, rfl⟩ := Option.map_eq_some_iff.mp h
    have hstage := Stage.holds_of_readyToBuild hready
    cases succeeds with
    | true => exact .advanced _ site _ _ hrunning hstage trivial
    | false => exact .failed _ site _ _ hrunning (.inr hstage) (.inl rfl)
  | sign answer =>
    simp only [step] at h
    split at h
    · rename_i site envelope hrunning
      cases h
      cases answer with
      | success => exact .advanced _ site _ _ hrunning trivial trivial
      | error => exact .failed _ site _ _ hrunning (.inr trivial) (.inr (.inl rfl))
      | threw => exact .failed _ site _ _ hrunning (.inr trivial) (.inl rfl)
    · cases h
  | send answer =>
    simp only [step] at h
    split at h
    · rename_i site envelope hrunning
      cases h
      cases answer with
      | pending => exact .submitted site envelope hrunning
      | rejected => exact .failed _ site _ _ hrunning (.inr trivial) (.inr (.inr (.inl rfl)))
      | threw received =>
        cases received with
        | true => exact .lost site envelope hrunning
        | false => exact .failed _ site _ _ hrunning (.inr trivial) (.inl rfl)
    · cases h
  | poll answers =>
    simp only [step] at h
    split at h
    · rename_i site i attempts wakesAt hrunning
      split at h
      · cases h
        split
        · exact .settled answers site i _ _ _ hrunning (by simp [*]) (.inl rfl)
        · exact .settled answers site i _ _ _ hrunning (by simp [*]) (.inr rfl)
        · exact .polled answers site i attempts wakesAt hrunning
      · cases h
    · cases h
  | giveUp =>
    simp only [step] at h
    split at h
    · rename_i site i wakesAt hrunning
      split at h
      · cases h
        exact .gaveUp site i wakesAt hrunning
      · cases h
    · cases h
  | ledger i succeeds =>
    obtain ⟨tx, hi, h⟩ := Option.bind_eq_some_iff.mp h
    split at h
    · cases h
      refine .included i tx _ succeeds hi ?_
      cases succeeds <;> decide
    · cases h
  | tick ms =>
    cases h
    exact .ticked ms

/-! ## What is open -/

/-- The transaction can still be included. -/
def World.IsOpen (w : World) (i : ℕ) : Prop := ∃ tx ∈ w.txs[i]?, ¬tx.Final w.clock

/-- The transactions that a state accounts for: that of the running section, or, before it
fetches, those that were given up. -/
def World.AccountsFor (w : World) (i : ℕ) : Prop :=
  match w.running with
  | none | some (_, .fetching) => i ∈ w.givenUp
  | some (_, .polling j _ _) => i = j
  | some _ => False

structure World.Sound (w : World) : Prop where
  accounted : ∀ i, w.IsOpen i → w.AccountsFor i
  one : ∀ i j, w.IsOpen i → w.IsOpen j → i = j

/-- No two transactions that can both still be included have the same sequence number. -/
def World.SequencesDistinct (w : World) : Prop :=
  ∀ (i j : ℕ) (tx tx' : Tx), w.txs[i]? = some tx → w.txs[j]? = some tx' → ¬tx.Final w.clock →
    ¬tx'.Final w.clock → tx.envelope.sequence = tx'.envelope.sequence → i = j

/-- When a section fetches the sequence number, every transaction that was submitted
before is final. -/
def OneUnresolved : World × Action × World → Prop
  | (w, .account true, w') => (∀ tx ∈ w.txs, tx.Final w.clock) ∧ w'.SequencesDistinct
  | (_, _, w') => w'.SequencesDistinct

/-- When a section fetches the sequence number, every transaction that was given up is
final. -/
def GivenUpFinal : World × Action × World → Prop
  | (w, .account true, _) => ∀ i ∈ w.givenUp, ∀ tx ∈ w.txs[i]?, tx.Final w.clock
  | _ => True

theorem World.sound_start (clock : ℕ) (sequence : ℤ) : (World.start clock sequence).Sound := by
  have hnone : ∀ i, ¬(World.start clock sequence).IsOpen i := by
    rintro i ⟨tx, htx, -⟩
    simp [World.start] at htx
  exact ⟨fun i hi => absurd hi (hnone i), fun i _ hi => absurd hi (hnone i)⟩

/-- A step that opens nothing, and whose state accounts for what is still open. -/
theorem World.Sound.of_le (hw : w.Sound) (hopen : ∀ i, w'.IsOpen i → w.IsOpen i)
    (haccounts : ∀ i, w.AccountsFor i → w'.AccountsFor i) : w'.Sound where
  accounted i hi := haccounts i (hw.accounted i (hopen i hi))
  one i j hi hj := hw.one i j (hopen i hi) (hopen j hj)

theorem World.Sound.of_none (hnone : ∀ i, ¬w.IsOpen i) : w.Sound :=
  ⟨fun i hi => absurd hi (hnone i), fun i _ hi => absurd hi (hnone i)⟩

/-- Nothing is open while a section holds a sequence number. -/
theorem World.Sound.not_isOpen (hw : w.Sound) {site : CallSite} {stage : Stage}
    (hrunning : w.running = some (site, stage)) (hstage : stage.Holds) (i : ℕ) : ¬w.IsOpen i := by
  intro hi
  have haccounts := hw.accounted i hi
  cases stage with
  | fetching | polling => exact hstage
  | fetched | simulated | built | signed =>
    rw [World.AccountsFor, hrunning] at haccounts
    exact haccounts

theorem Tx.Final.mono {clock clock' : ℕ} {tx : Tx} (h : tx.Final clock) (hle : clock ≤ clock') :
    tx.Final clock' := by
  rcases h with hstatus | hexpired
  · exact .inl hstatus
  · exact .inr (Nat.lt_of_lt_of_le hexpired (Nat.div_le_div_right hle))

/-- The transaction that is submitted is the only new one. -/
theorem World.isOpen_submit {site : CallSite} {envelope : Envelope} {i : ℕ}
    (h : (w.submit site envelope).IsOpen i) : w.IsOpen i ∨ i = w.txs.length := by
  obtain ⟨tx, htx, hopen⟩ := h
  by_cases hlt : i < w.txs.length
  · refine .inl ⟨tx, ?_, hopen⟩
    rwa [World.submit, List.getElem?_append_left hlt] at htx
  · have hi := (List.getElem?_eq_some_iff.mp htx).1
    simp only [World.submit, List.length_append, List.length_singleton] at hi
    exact .inr (by omega)

theorem World.isOpen_set {i j : ℕ} {tx tx' : Tx} (hi : w.txs[i]? = some tx)
    (hfinal : tx'.status ≠ .pending) {sequence : ℤ}
    (h : World.IsOpen { w with sequence := sequence, txs := w.txs.set i tx' } j) : w.IsOpen j := by
  obtain ⟨t, ht, hopen⟩ := h
  by_cases hij : i = j
  · subst hij
    have hlt : i < w.txs.length := (List.getElem?_eq_some_iff.mp hi).1
    obtain rfl : tx' = t := by simpa [hlt] using ht
    exact absurd (.inl hfinal) hopen
  · refine ⟨t, ?_, hopen⟩
    rwa [List.getElem?_set_ne hij] at ht

/-- The transaction of a section that holds a sequence number is the only one open. -/
theorem World.Sound.eq_of_isOpen_submit (hw : w.Sound) {site : CallSite} {stage : Stage}
    {envelope : Envelope} (hrunning : w.running = some (site, stage)) (hstage : stage.Holds) {i : ℕ}
    (hi : (w.submit site envelope).IsOpen i) : i = w.txs.length :=
  (World.isOpen_submit hi).resolve_left (hw.not_isOpen hrunning hstage i)

/-- A state that accounts for the one transaction that can be open. -/
theorem World.Sound.of_eq {k : ℕ} (honly : ∀ i, w.IsOpen i → i = k) (hk : w.AccountsFor k) :
    w.Sound where
  accounted i hi := honly i hi ▸ hk
  one i j hi hj := (honly i hi).trans (honly j hj).symm

/-- A section whose transaction is settled leaves nothing open. -/
theorem World.Sound.not_isOpen_of_settled (hw : w.Sound) {site : CallSite}
    {i attempts wakesAt : ℕ} {answers : Bool}
    (hrunning : w.running = some (site, .polling i attempts wakesAt))
    (hsettled : w.statusOf i answers ≠ .pending) (j : ℕ) : ¬w.IsOpen j := by
  intro hj
  have haccounts := hw.accounted j hj
  rw [World.AccountsFor, hrunning] at haccounts
  obtain rfl : j = i := haccounts
  obtain ⟨tx, htx, hopen⟩ := hj
  rw [World.statusOf] at hsettled
  split at hsettled
  · rw [Option.mem_def.mp htx] at hsettled
    exact hopen (.inl hsettled)
  · exact hsettled rfl

/-- What is open stays accounted for, unless a section fetches while something that was
given up is open. -/
theorem World.Sound.step (hw : w.Sound) (hq : GivenUpFinal (w, a, w')) (h : step w a = some w') :
    w'.Sound := by
  cases move_of_step h with
  | queued site => exact hw.of_le (fun _ hi => hi) fun _ hi => hi
  | started site rest hnone =>
    refine hw.of_le (fun _ hi => hi) fun i hi => ?_
    rwa [World.AccountsFor, hnone] at hi
  | fetched site hrunning =>
    -- the one step that needs the condition: what was given up is all that can be open
    refine .of_none fun i hi => ?_
    have haccounts := hw.accounted i hi
    rw [World.AccountsFor, hrunning] at haccounts
    obtain ⟨tx, htx, hopen⟩ := hi
    exact hopen (hq i haccounts tx htx)
  | failed a site stage failure hrunning hstage hfailure =>
    rcases hstage with rfl | hholds
    · refine hw.of_le (fun _ hi => hi) fun i hi => ?_
      rwa [World.AccountsFor, hrunning] at hi
    · exact .of_none (hw.not_isOpen hrunning hholds)
  | advanced a site stage stage' hrunning hstage hstage' =>
    exact .of_none (hw.not_isOpen hrunning hstage)
  | submitted site envelope hrunning =>
    exact .of_eq (fun i hi => hw.eq_of_isOpen_submit hrunning trivial hi) rfl
  | lost site envelope hrunning =>
    refine .of_eq (fun i hi => hw.eq_of_isOpen_submit hrunning trivial hi) ?_
    show w.txs.length ∈ w.givenUp ++ [w.txs.length]
    exact List.mem_append_right _ (List.mem_singleton_self _)
  | settled answers site i attempts wakesAt result hrunning hsettled hresult =>
    exact .of_none (hw.not_isOpen_of_settled hrunning hsettled)
  | polled answers site i attempts wakesAt hrunning =>
    refine hw.of_le (fun _ hj => hj) fun j hj => ?_
    rwa [World.AccountsFor, hrunning] at hj
  | gaveUp site i wakesAt hrunning =>
    refine hw.of_le (fun _ hj => hj) fun j hj => ?_
    rw [World.AccountsFor, hrunning] at hj
    subst hj
    exact List.mem_append_right _ (List.mem_singleton_self _)
  | included i tx status succeeds hi hstatus =>
    exact hw.of_le (fun _ hj => World.isOpen_set hi hstatus hj) fun _ hj => hj
  | ticked ms =>
    refine hw.of_le ?_ fun _ hi => hi
    rintro i ⟨tx, htx, hopen⟩
    exact ⟨tx, htx, fun hfinal => hopen (hfinal.mono (Nat.le_add_right _ _))⟩

/-- With at most one transaction open, sequence numbers do not matter. -/
theorem World.Sound.sequencesDistinct (hw : w.Sound) : w.SequencesDistinct :=
  fun i j tx tx' hi hj hopen hopen' _ => hw.one i j ⟨tx, hi, hopen⟩ ⟨tx', hj, hopen'⟩

theorem fetching_of_step {answers : Bool} (h : step w (.account answers) = some w') :
    ∃ site, w.running = some (site, .fetching) := by
  simp only [step] at h
  split at h
  · exact ⟨_, ‹_›⟩
  · cases h

theorem oneUnresolved_of_sound (hw : w.Sound) (hq : GivenUpFinal (w, a, w'))
    (h : step w a = some w') : OneUnresolved (w, a, w') := by
  have hdistinct := (hw.step hq h).sequencesDistinct
  cases a with
  | account answers =>
    cases answers with
    | false => exact hdistinct
    | true =>
      refine ⟨fun tx htx => ?_, hdistinct⟩
      obtain ⟨site, hrunning⟩ := fetching_of_step h
      obtain ⟨i, hi⟩ := List.mem_iff_getElem?.mp htx
      -- a transaction that is open has been given up
      by_contra hopen
      have haccounts := hw.accounted i ⟨tx, hi, hopen⟩
      rw [World.AccountsFor, hrunning] at haccounts
      exact hopen (hq i haccounts tx hi)
  | _ => exact hdistinct

theorem givenUpFinal_of_oneUnresolved (h : OneUnresolved (w, a, w')) :
    GivenUpFinal (w, a, w') := by
  cases a with
  | account answers =>
    cases answers with
    | false => trivial
    | true => exact fun i _ tx htx => h.1 tx (List.mem_of_getElem? htx)
  | _ => trivial

/-- A sequence number is only ever fetched with every earlier transaction final, and no two
open transactions are built on the same one, exactly when at each fetch the transactions
that sections have given up on are final. -/
theorem one_unresolved_iff (clock : ℕ) (sequence : ℤ) (ls : List Action) :
    (∀ e ∈ trace step (.start clock sequence) ls, OneUnresolved e) ↔
      ∀ e ∈ trace step (.start clock sequence) ls, GivenUpFinal e := by
  constructor
  · rintro h ⟨w, a, w'⟩ he
    exact givenUpFinal_of_oneUnresolved (h _ he)
  · intro h
    have hrun := trace_forall_congr (I := World.Sound) (H := GivenUpFinal) (P := OneUnresolved)
      (Q := fun _ => True) (World.sound_start clock sequence)
      (fun _ _ _ hw hq hs => hw.step hq hs)
      (fun _ _ _ hw hq hs => iff_of_true (oneUnresolved_of_sound hw hq hs) trivial) h
    exact hrun.mpr fun _ _ => trivial

/-- `openChannel` polls fifteen times and gives up, after which `closeChannel` fetches the
same sequence number. -/
def exampleGivenUp : List Action :=
  [.call .openChannel, .call .closeChannel, .start, .account true, .build true, .sign .success,
      .send .pending] ++
    (List.replicate 15 [Action.poll false, .tick 1000]).flatten ++
    [.giveUp, .start, .account true, .build true, .sign .success, .send .pending]

/-- Both transactions can then still be included. -/
theorem two_open_on_one_sequence :
    ∃ w, exec step (.start 0 41) exampleGivenUp = some w ∧
      w.txs = [⟨.openChannel, ⟨42, 60⟩, .pending⟩, ⟨.closeChannel, ⟨42, 75⟩, .pending⟩] ∧
      ∀ tx ∈ w.txs, ¬tx.Final w.clock :=
  exists_exec_of_any (by decide +kernel)

end KonfirmBackend.Facilitator.SubmissionQueue
