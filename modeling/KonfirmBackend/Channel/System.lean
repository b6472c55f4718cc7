import KonfirmBackend.Lib.InFlight
import KonfirmBackend.Lib.Transition
import KonfirmBackend.Channel.Row

/-!
# One channel under concurrent calls

A row of `x402_channels`, the channel on chain, and every call of `claim`,
`closeChannel` and `resyncFromChain` that is under way on them. A call is split where
it leaves the process: after its `SELECT`, after the chain has confirmed or answered,
at its `UPDATE`. Any call may take its next step at any time, and may stop for good
between two of them.

## Main definitions

- `ChannelState` — the row, the chain and the calls in flight
- `step` — one step of one call, or of the chain
- `Move` — the steps case by case

## Main results

- `move_of_step` — every step is one of the cases
- `tracks_of_step` — each call in flight knows the status that is stored
-/

namespace KonfirmBackend.Channel

/-- A call in flight carries the status its read found and those stored since. -/
structure ChannelState where
  row : ChannelRow
  chain : ChannelInfo
  /-- claims between their checks and their `UPDATE` -/
  claims : List (InFlight Claim ChannelStatus)
  /-- callers of `closeChannel` whose `initiate_close` is being submitted -/
  submitting : List String
  /-- callers whose `initiate_close` is confirmed, before the `UPDATE` -/
  closes : List (InFlight String ChannelStatus)
  /-- answers of `get_channel_info`, before the `UPDATE` -/
  resyncs : List (InFlight ChannelInfo ChannelStatus)
deriving DecidableEq

namespace ChannelState

/-- A row with no call under way. -/
def start (row : ChannelRow) (chain : ChannelInfo) : ChannelState := ⟨row, chain, [], [], [], []⟩

/-- A statement that sets `status` replaces the row. -/
def store (s : ChannelState) (row : ChannelRow) : ChannelState where
  row := row
  chain := s.chain
  claims := s.claims.map (.note row.status)
  submitting := s.submitting
  closes := s.closes.map (.note row.status)
  resyncs := s.resyncs.map (.note row.status)

end ChannelState

inductive Action
  /-- the `SELECT` and the checks of `claim` -/
  | claim (c : Claim)
  | claimUpdate (i : ℕ) (now : ℤ)
  /-- the `SELECT` and the checks of `closeChannel` -/
  | close (caller : String)
  /-- `initiate_close` takes effect on chain -/
  | closeConfirmed (i : ℕ)
  | closeUpdate (i : ℕ) (now : ℤ)
  | resyncRead
  | resyncUpdate (i : ℕ)
  /-- anything else that happens to the channel on chain -/
  | chain (info : ChannelInfo)
deriving DecidableEq

def step (verifyEd25519 : Ed25519) (s : ChannelState) : Action → Option ChannelState
  | .claim c =>
    if claimSelect verifyEd25519 (s.row.select c.onchainChannelId) c = .passed then
      some { s with claims := s.claims ++ [.start c s.row.status] }
    else some s
  | .claimUpdate i now =>
    (s.claims[i]?).map fun f =>
      match claimUpdate f.op now s.row with
      | none => { s with claims := s.claims.eraseIdx i }
      | some (_, row) => { s with row := row, claims := s.claims.eraseIdx i }
  | .close caller =>
    if closeSelect (some s.row) (some caller) = none then
      some { s with submitting := s.submitting ++ [caller] }
    else some s
  | .closeConfirmed i =>
    (s.submitting[i]?).map fun caller =>
      { s with
        chain := { s.chain with status := .closing }
        submitting := s.submitting.eraseIdx i
        closes := s.closes ++ [.start caller s.row.status] }
  | .closeUpdate i now =>
    (s.closes[i]?).map fun _ =>
      { s with closes := s.closes.eraseIdx i }.store (closeUpdate now s.row)
  | .resyncRead => some { s with resyncs := s.resyncs ++ [.start s.chain s.row.status] }
  | .resyncUpdate i =>
    (s.resyncs[i]?).map fun f =>
      { s with resyncs := s.resyncs.eraseIdx i }.store (resyncUpdate f.op s.row)
  | .chain info => some { s with chain := info }

/-- The steps of one channel, one constructor for each outcome. -/
inductive Move (verifyEd25519 : Ed25519) (s : ChannelState) : Action → ChannelState → Prop
  | claimRefused (c : Claim) : Move verifyEd25519 s (.claim c) s
  | claimChecked (c : Claim)
      (hpass : claimSelect verifyEd25519 (s.row.select c.onchainChannelId) c = .passed) :
      Move verifyEd25519 s (.claim c) { s with claims := s.claims ++ [.start c s.row.status] }
  | claimLost (i : ℕ) (now : ℤ) (f : InFlight Claim ChannelStatus) (hf : s.claims[i]? = some f)
      (hlost : ¬(isBigint f.op.nonce ∧ s.row.pendingNonce < f.op.nonce)) :
      Move verifyEd25519 s (.claimUpdate i now) { s with claims := s.claims.eraseIdx i }
  | claimAccepted (i : ℕ) (now : ℤ) (f : InFlight Claim ChannelStatus)
      (hf : s.claims[i]? = some f) (hbig : isBigint f.op.nonce)
      (hlt : s.row.pendingNonce < f.op.nonce) :
      Move verifyEd25519 s (.claimUpdate i now)
        { s with row := s.row.credit f.op now, claims := s.claims.eraseIdx i }
  | closeRefused (caller : String) : Move verifyEd25519 s (.close caller) s
  | closeChecked (caller : String) :
      Move verifyEd25519 s (.close caller) { s with submitting := s.submitting ++ [caller] }
  | closeConfirmed (i : ℕ) (caller : String) (hi : s.submitting[i]? = some caller) :
      Move verifyEd25519 s (.closeConfirmed i)
        { s with
          chain := { s.chain with status := .closing }
          submitting := s.submitting.eraseIdx i
          closes := s.closes ++ [.start caller s.row.status] }
  | closeWritten (i : ℕ) (now : ℤ) (f : InFlight String ChannelStatus)
      (hf : s.closes[i]? = some f) :
      Move verifyEd25519 s (.closeUpdate i now)
        ({ s with closes := s.closes.eraseIdx i }.store (closeUpdate now s.row))
  | resyncRead :
      Move verifyEd25519 s .resyncRead
        { s with resyncs := s.resyncs ++ [.start s.chain s.row.status] }
  | resyncWritten (i : ℕ) (f : InFlight ChannelInfo ChannelStatus)
      (hf : s.resyncs[i]? = some f) :
      Move verifyEd25519 s (.resyncUpdate i)
        ({ s with resyncs := s.resyncs.eraseIdx i }.store (resyncUpdate f.op s.row))
  | chainMoved (info : ChannelInfo) :
      Move verifyEd25519 s (.chain info) { s with chain := info }

variable {verifyEd25519 : Ed25519} {s t : ChannelState} {a : Action}

/-- The claim's write, by what its guard says. -/
theorem move_claimUpdate {i : ℕ} {now : ℤ} {f : InFlight Claim ChannelStatus}
    (hf : s.claims[i]? = some f) (h : step verifyEd25519 s (.claimUpdate i now) = some t) :
    Move verifyEd25519 s (.claimUpdate i now) t := by
  simp only [step, hf, Option.map_some, Option.some.injEq] at h
  by_cases hbig : isBigint f.op.nonce
  · by_cases hlt : s.row.pendingNonce < f.op.nonce
    · rw [claimUpdate_of_lt hbig hlt] at h
      subst h
      exact .claimAccepted i now f hf hbig hlt
    · rw [claimUpdate_of_not_lt hbig hlt] at h
      subst h
      exact .claimLost i now f hf fun hwin => hlt hwin.2
  · rw [claimUpdate_of_not_bigint hbig] at h
    subst h
    exact .claimLost i now f hf fun hwin => hbig hwin.1

/-- Every step is one of the cases. -/
theorem move_of_step (h : step verifyEd25519 s a = some t) : Move verifyEd25519 s a t := by
  cases a with
  | claim c =>
    simp only [step] at h
    split at h
    · cases h
      exact .claimChecked c ‹_›
    · cases h
      exact .claimRefused c
  | claimUpdate i now =>
    obtain ⟨f, hf, -⟩ := Option.map_eq_some_iff.mp h
    exact move_claimUpdate hf h
  | close caller =>
    simp only [step] at h
    split at h
    · cases h
      exact .closeChecked caller
    · cases h
      exact .closeRefused caller
  | closeConfirmed i =>
    obtain ⟨caller, hi, rfl⟩ := Option.map_eq_some_iff.mp h
    exact .closeConfirmed i caller hi
  | closeUpdate i now =>
    obtain ⟨f, hf, rfl⟩ := Option.map_eq_some_iff.mp h
    exact .closeWritten i now f hf
  | resyncRead =>
    cases h
    exact .resyncRead
  | resyncUpdate i =>
    obtain ⟨f, hf, rfl⟩ := Option.map_eq_some_iff.mp h
    exact .resyncWritten i f hf
  | chain info =>
    cases h
    exact .chainMoved info

/-- Each call in flight knows the status that is stored. -/
structure ChannelState.Tracks (s : ChannelState) : Prop where
  claims : ∀ f ∈ s.claims, f.latest = s.row.status
  closes : ∀ f ∈ s.closes, f.latest = s.row.status
  resyncs : ∀ f ∈ s.resyncs, f.latest = s.row.status

theorem ChannelState.tracks_start (row : ChannelRow) (chain : ChannelInfo) :
    (ChannelState.start row chain).Tracks := by
  constructor <;> simp [ChannelState.start]

/-- A statement that sets the status is noted by everybody. -/
theorem ChannelState.tracks_store (s : ChannelState) (row : ChannelRow) : (s.store row).Tracks :=
  ⟨InFlight.latest_of_mem_map_note, InFlight.latest_of_mem_map_note,
    InFlight.latest_of_mem_map_note⟩

theorem tracks_of_step (hs : s.Tracks) (h : step verifyEd25519 s a = some t) : t.Tracks := by
  obtain ⟨hclaims, hcloses, hresyncs⟩ := hs
  cases move_of_step h with
  | claimRefused | closeRefused | closeChecked | chainMoved => exact ⟨hclaims, hcloses, hresyncs⟩
  | claimChecked => exact ⟨InFlight.latest_of_mem_append_start hclaims, hcloses, hresyncs⟩
  | claimLost | claimAccepted =>
    -- a claim's write leaves the status as it is
    exact ⟨InFlight.forall_eraseIdx _ hclaims, hcloses, hresyncs⟩
  | closeConfirmed => exact ⟨hclaims, InFlight.latest_of_mem_append_start hcloses, hresyncs⟩
  | resyncRead => exact ⟨hclaims, hcloses, InFlight.latest_of_mem_append_start hresyncs⟩
  | closeWritten => exact ChannelState.tracks_store _ _
  | resyncWritten => exact ChannelState.tracks_store _ _

end KonfirmBackend.Channel
