import KonfirmBackend.Lib.JsNumber
import KonfirmBackend.Lib.Transition

/-!
# The facilitator's signer

`getFacilitatorSigner` keeps the promise of its first call for as long as the process lives.
With a key in KMS the secret never comes to the process: its address is derived from the
public key, and each transaction's hash is sent away to be signed. KMS may answer anything.
The SDK attaches a signature only after it has checked it.

## Main definitions

- `deriveStellarAddress`, `signWithKms`, `signTransaction` — the functions of the source
- `Process.step` — calls of `getFacilitatorSigner` and of `signTransaction`, and the answers

## Main results

- `signs_validly` — of every run of the process
-/

namespace KonfirmBackend.FacilitatorSigner

open Transition

/-- What the signers use of `@stellar/stellar-sdk` and `@x402/stellar`; an error is an exception
with its message. -/
structure Sdk (Tx : Type) where
  parse : String → String → Except String Tx
  hash : Tx → List UInt8
  toXDR : Tx → String
  signatures : Tx → List (List UInt8)
  addSignature : Tx → String → List UInt8 → Except String Tx
  encodeEd25519PublicKey : List UInt8 → String
  /-- the address of the signer that `createEd25519Signer` makes of a secret key -/
  createEd25519Signer : String → Except String String

/-- `addSignature` checks a signature against the hash before it attaches it. -/
structure Sdk.Lawful {Tx : Type} (S : Sdk Tx) (verifies : String → List UInt8 → List UInt8 → Prop) :
    Prop where
  checked : ∀ {tx tx' address signature}, S.addSignature tx address signature = .ok tx' →
    verifies address (S.hash tx) signature
  hash_eq : ∀ {tx tx' address signature}, S.addSignature tx address signature = .ok tx' →
    S.hash tx' = S.hash tx
  attached : ∀ {tx tx' address signature}, S.addSignature tx address signature = .ok tx' →
    S.signatures tx' = S.signatures tx ++ [signature]

/-- `process.env`. -/
structure Env where
  STELLAR_DEPLOYER_SECRET_KEY : Option String
  FACILITATOR_KMS_KEY_ID : Option String

/-- A variable that is set, and not to the empty string. -/
def truthy (value : Option String) : Option String := value.filter fun s => s ≠ ""

/-- What a command to KMS comes back with: the field that is read of it, or an exception. -/
abbrev KmsAnswer := Except String (Option (List UInt8))

def ED25519_SPKI_PREFIX_LEN : ℕ := 12

section Functions

variable {Tx : Type} (S : Sdk Tx)

def deriveStellarAddress (keyId : String) : KmsAnswer → Except String String
  | .error message => .error message
  | .ok none => .error ("KMS GetPublicKey returned no key material for " ++ keyId)
  | .ok (some der) =>
    let rawPublicKey := der.drop ED25519_SPKI_PREFIX_LEN
    if rawPublicKey.length ≠ 32 then
      .error ("unexpected Ed25519 public key length from KMS: got " ++
        toString rawPublicKey.length ++ " raw bytes, expected 32")
    else .ok (S.encodeEd25519PublicKey rawPublicKey)

/-- What `signWithKms` makes of the answer. -/
def signWithKms : KmsAnswer → Except String (List UInt8)
  | .error message => .error message
  | .ok none => .error "KMS Sign returned no signature"
  | .ok (some signature) =>
    if signature.length ≠ 64 then
      .error ("unexpected Ed25519 signature length from KMS: got " ++
        toString signature.length ++ " bytes, expected 64")
    else .ok signature

structure SignResult where
  signedTxXdr : String
  signerAddress : Option String
  error : Option String
deriving DecidableEq

def SignResult.failed (xdr message : String) : SignResult := ⟨xdr, none, some message⟩

/-- `signTransaction` up to its call to KMS: the transaction whose hash it sends there, or what
it returns without one. -/
def signTransaction (xdr : String) (networkPassphrase : Option String) : Except SignResult Tx :=
  match truthy networkPassphrase with
  | none => .error (.failed xdr "networkPassphrase is required to sign")
  | some networkPassphrase =>
    match S.parse xdr networkPassphrase with
    | .error message => .error (.failed xdr message)
    | .ok tx => .ok tx

/-- The rest of `signTransaction`. -/
def attachSignature (address xdr : String) (tx : Tx) (answer : KmsAnswer) : SignResult :=
  match signWithKms answer with
  | .error message => .failed xdr message
  | .ok signature =>
    match S.addSignature tx address signature with
    | .error message => .failed xdr message
    | .ok tx => ⟨S.toXDR tx, some address, none⟩

end Functions

/-! ## The process -/

/-- A signer, and the key in KMS if it has one. -/
structure Signer where
  address : String
  keyId : Option String
deriving DecidableEq

/-- The promise in the variable `signerPromise`, with what it is waiting for. -/
inductive SignerPromise
  | publicKey (keyId : String)
  | secretKey
  | settled (outcome : Except String Signer)

/-- A call of `getFacilitatorSigner`, and what it has been resumed with. -/
structure Call where
  outcome : Option (Except String Signer)

/-- A call of `signTransaction` of a signer with a key in KMS. -/
structure Job (Tx : Type) where
  address : String
  xdr : String
  networkPassphrase : Option String
  /-- the transaction that KMS is asked about, or the result -/
  state : Tx ⊕ SignResult

/-- `SignCommand`, with the key and the message. -/
structure SignCommand where
  keyId : String
  message : List UInt8
deriving DecidableEq

structure Process (Tx : Type) where
  signerPromise : Option SignerPromise
  calls : List Call
  jobs : List (Job Tx)
  /-- the public keys that KMS has been asked for -/
  publicKeyCommands : List String
  /-- how often the CLI has been run -/
  cliRuns : ℕ
  signCommands : List SignCommand

def Process.start (Tx : Type) : Process Tx := ⟨none, [], [], [], 0, []⟩

inductive Label
  /-- `getFacilitatorSigner` is called -/
  | call
  /-- KMS answers `GetPublicKeyCommand` -/
  | publicKey (answer : KmsAnswer)
  /-- the secret key is there, from the environment or what the CLI printed -/
  | secretKey (stdout : Except String String)
  /-- a call of `getFacilitatorSigner` goes on with the outcome of the promise -/
  | resume (n : ℕ)
  /-- the signer of a call is to sign -/
  | sign (n : ℕ) (xdr : String) (networkPassphrase : Option String)
  /-- KMS answers `SignCommand` -/
  | signature (j : ℕ) (answer : KmsAnswer)

namespace Process

variable {Tx : Type}

/-- The first call sends for the key. -/
def createSigner (env : Env) (w : Process Tx) : Process Tx :=
  match truthy env.FACILITATOR_KMS_KEY_ID with
  | some keyId => { w with
      signerPromise := some (.publicKey keyId)
      publicKeyCommands := w.publicKeyCommands ++ [keyId] }
  | none => { w with
      signerPromise := some .secretKey
      cliRuns := w.cliRuns + if (truthy env.STELLAR_DEPLOYER_SECRET_KEY).isSome then 0 else 1 }

def getFacilitatorSigner (env : Env) (w : Process Tx) : Process Tx :=
  let w := if w.signerPromise.isNone then w.createSigner env else w
  { w with calls := w.calls ++ [⟨none⟩] }

def resolveDeployerSecretKey (env : Env) (stdout : Except String String) : Except String String :=
  match truthy env.STELLAR_DEPLOYER_SECRET_KEY with
  | some fromEnv => .ok fromEnv
  | none => stdout.map fun s => String.ofList (JsNumber.trim s.toList)

def settle (w : Process Tx) (outcome : Except String Signer) : Process Tx :=
  { w with signerPromise := some (.settled outcome) }

variable (S : Sdk Tx) (env : Env)

def step (w : Process Tx) : Label → Option (Process Tx)
  | .call => some (w.getFacilitatorSigner env)
  | .publicKey answer =>
    match w.signerPromise with
    | some (.publicKey keyId) =>
      some (w.settle ((deriveStellarAddress S keyId answer).map fun address => ⟨address, keyId⟩))
    | _ => none
  | .secretKey stdout =>
    match w.signerPromise with
    | some .secretKey =>
      some (w.settle (((resolveDeployerSecretKey env stdout).bind S.createEd25519Signer).map
        fun address => ⟨address, none⟩))
    | _ => none
  | .resume n =>
    match w.calls[n]?, w.signerPromise with
    | some ⟨none⟩, some (.settled outcome) =>
      some { w with calls := w.calls.set n ⟨some outcome⟩ }
    | _, _ => none
  | .sign n xdr networkPassphrase =>
    match w.calls[n]? with
    | some ⟨some (.ok ⟨address, some keyId⟩)⟩ =>
      match signTransaction S xdr networkPassphrase with
      | .error result => some { w with
          jobs := w.jobs ++ [⟨address, xdr, networkPassphrase, .inr result⟩] }
      | .ok tx => some { w with
          jobs := w.jobs ++ [⟨address, xdr, networkPassphrase, .inl tx⟩]
          signCommands := w.signCommands ++ [⟨keyId, S.hash tx⟩] }
    | _ => none
  | .signature j answer =>
    match w.jobs[j]? with
    | some job =>
      match job.state with
      | .inl tx => some { w with
          jobs := w.jobs.set j { job with
            state := .inr (attachSignature S job.address job.xdr tx answer) } }
      | .inr _ => none
    | none => none

end Process

/-! ## What a signature is worth -/

section Results

variable {Tx : Type} {S : Sdk Tx} {env : Env} {verifies : String → List UInt8 → List UInt8 → Prop}

/-- What KMS is asked for a call of `signTransaction`. -/
def Job.command (S : Sdk Tx) (keyId : String) (job : Job Tx) : Option SignCommand :=
  (signTransaction S job.xdr job.networkPassphrase).toOption.map fun tx => ⟨keyId, S.hash tx⟩

/-- The result has the transaction that was parsed, with one signature more, that of `address`
for its hash. -/
def SignResult.Signs (S : Sdk Tx) (verifies : String → List UInt8 → List UInt8 → Prop)
    (address : String) (tx : Tx) (result : SignResult) : Prop :=
  ∃ tx' signature, result = ⟨S.toXDR tx', some address, none⟩ ∧ S.hash tx' = S.hash tx ∧
    S.signatures tx' = S.signatures tx ++ [signature] ∧ verifies address (S.hash tx) signature

/-- The result has the transaction as it came, and says why. -/
def SignResult.Refuses (xdr : String) (result : SignResult) : Prop :=
  ∃ message, result = .failed xdr message

theorem deriveStellarAddress_eq_ok {keyId address : String} {answer : KmsAnswer}
    (h : deriveStellarAddress S keyId answer = .ok address) :
    ∃ envelope rawPublicKey, answer = .ok (some (envelope ++ rawPublicKey)) ∧
      envelope.length = ED25519_SPKI_PREFIX_LEN ∧ rawPublicKey.length = 32 ∧
      address = S.encodeEd25519PublicKey rawPublicKey := by
  rw [deriveStellarAddress.eq_def] at h
  split at h
  · cases h
  · cases h
  · rename_i der
    dsimp only at h
    split at h
    · cases h
    · rename_i hlength
      cases h
      refine ⟨der.take ED25519_SPKI_PREFIX_LEN, der.drop ED25519_SPKI_PREFIX_LEN,
        by rw [List.take_append_drop], ?_, not_not.mp hlength, rfl⟩
      -- there is a byte behind the envelope, so that it is whole
      have := not_not.mp hlength
      rw [List.length_drop] at this
      rw [List.length_take]
      omega

theorem signTransaction_eq_error {xdr : String} {networkPassphrase : Option String}
    {result : SignResult} (h : signTransaction S xdr networkPassphrase = .error result) :
    result.Refuses xdr := by
  rw [signTransaction] at h
  split at h
  · cases h
    exact ⟨_, rfl⟩
  · split at h <;> cases h
    exact ⟨_, rfl⟩

/-- Whatever KMS answers. -/
theorem attachSignature_signs_or_refuses (hS : S.Lawful verifies) (address xdr : String) (tx : Tx)
    (answer : KmsAnswer) :
    (attachSignature S address xdr tx answer).Signs S verifies address tx ∨
      (attachSignature S address xdr tx answer).Refuses xdr := by
  rw [attachSignature]
  cases signWithKms answer with
  | error message => exact .inr ⟨message, rfl⟩
  | ok signature =>
    cases hadd : S.addSignature tx address signature with
    | error message => exact .inr ⟨message, by simp only [hadd]⟩
    | ok tx' =>
      exact .inl ⟨tx', signature, by simp only [hadd], hS.hash_eq hadd, hS.attached hadd,
        hS.checked hadd⟩

/-- A call of `signTransaction` that asks KMS, or has returned what it may. -/
def Job.Sound (S : Sdk Tx) (verifies : String → List UInt8 → List UInt8 → Prop) (job : Job Tx) :
    Prop :=
  match job.state with
  | .inl tx => signTransaction S job.xdr job.networkPassphrase = .ok tx
  | .inr result => result.Refuses job.xdr ∨
      ∃ tx, signTransaction S job.xdr job.networkPassphrase = .ok tx ∧
        result.Signs S verifies job.address tx

/-- The address is that of a raw public key, of which KMS has sent the envelope. -/
def Sdk.Derives (S : Sdk Tx) (address : String) : Prop :=
  ∃ rawPublicKey : List UInt8, rawPublicKey.length = 32 ∧
    address = S.encodeEd25519PublicKey rawPublicKey

/-- The signer is that of the environment. -/
def Signer.Configured (S : Sdk Tx) (env : Env) (signer : Signer) : Prop :=
  signer.keyId = truthy env.FACILITATOR_KMS_KEY_ID ∧
    ∀ keyId, signer.keyId = some keyId → S.Derives signer.address

/-- What is asked for in a process, and for what. -/
def SignerPromise.Configured (S : Sdk Tx) (env : Env) : SignerPromise → Prop
  | .publicKey keyId => truthy env.FACILITATOR_KMS_KEY_ID = some keyId
  | .secretKey => truthy env.FACILITATOR_KMS_KEY_ID = none
  | .settled outcome => ∀ signer, outcome = .ok signer → signer.Configured S env

namespace Process

structure Sound (S : Sdk Tx) (env : Env) (verifies : String → List UInt8 → List UInt8 → Prop)
    (w : Process Tx) : Prop where
  promise : ∀ p, w.signerPromise = some p → p.Configured S env
  once : w.publicKeyCommands.length + w.cliRuns ≤ if w.signerPromise.isNone then 0 else 1
  calls : ∀ c ∈ w.calls, ∀ outcome, c.outcome = some outcome →
    w.signerPromise = some (.settled outcome)
  jobs : ∀ job ∈ w.jobs, job.Sound S verifies ∧
    ∃ keyId, w.signerPromise = some (.settled (.ok ⟨job.address, some keyId⟩))
  commands : ∀ keyId, truthy env.FACILITATOR_KMS_KEY_ID = some keyId →
    w.signCommands = w.jobs.filterMap (Job.command S keyId)

theorem sound_start : (Process.start Tx).Sound S env verifies where
  promise := fun p hp => by cases hp
  once := le_rfl
  calls := fun c hc => absurd hc List.not_mem_nil
  jobs := fun j hj => absurd hj List.not_mem_nil
  commands := fun keyId hkey => rfl

variable {w w' : Process Tx} {l : Label}

/-- Before the promise is settled no call has gone on, and nothing has been signed. -/
theorem Sound.idle (h : w.Sound S env verifies)
    (hp : ∀ outcome, w.signerPromise ≠ some (.settled outcome)) :
    (∀ c ∈ w.calls, c.outcome = none) ∧ w.jobs = [] := by
  refine ⟨fun c hc => ?_, ?_⟩
  · cases ho : c.outcome with
    | none => rfl
    | some outcome => exact absurd (h.calls c hc outcome ho) (hp outcome)
  · rw [List.eq_nil_iff_forall_not_mem]
    intro job hjob
    obtain ⟨-, keyId, hsettled⟩ := h.jobs job hjob
    exact hp _ hsettled

theorem Sound.createSigner (h : w.Sound S env verifies) (hp : w.signerPromise = none) :
    (w.createSigner env).Sound S env verifies := by
  have hcounts : w.publicKeyCommands.length + w.cliRuns = 0 := by simpa [hp] using h.once
  obtain ⟨hcalls, hjobs⟩ := h.idle (by simp [hp])
  have hwaiting : ∀ c ∈ w.calls, ∀ outcome, c.outcome = some outcome → False := by
    intro c hc outcome ho
    rw [hcalls c hc] at ho
    cases ho
  rw [Process.createSigner]
  cases hkey : truthy env.FACILITATOR_KMS_KEY_ID with
  | some keyId =>
    refine ⟨fun p hp => by cases hp; exact hkey, ?_, fun c hc o ho => (hwaiting c hc o ho).elim,
      by simp [hjobs], h.commands⟩
    show (w.publicKeyCommands ++ [keyId]).length + w.cliRuns ≤ 1
    rw [List.length_append, List.length_singleton]
    omega
  | none =>
    refine ⟨fun p hp => by cases hp; exact hkey, ?_, fun c hc o ho => (hwaiting c hc o ho).elim,
      by simp [hjobs], h.commands⟩
    show w.publicKeyCommands.length + (w.cliRuns + if _ then 0 else 1) ≤ 1
    split <;> omega

theorem Sound.call (h : w.Sound S env verifies) :
    (w.getFacilitatorSigner env).Sound S env verifies := by
  have hcreated : (if w.signerPromise.isNone then w.createSigner env else w).Sound S env
      verifies := by
    by_cases hp : w.signerPromise = none
    · rw [if_pos (by simp [hp])]
      exact h.createSigner hp
    · rw [if_neg (by simpa using hp)]
      exact h
  refine ⟨hcreated.promise, hcreated.once, fun c hc outcome ho => ?_, hcreated.jobs,
    hcreated.commands⟩
  obtain hc | hc := List.mem_append.mp hc
  · exact hcreated.calls c hc outcome ho
  · rw [List.mem_singleton.mp hc] at ho
    cases ho

theorem Sound.settle (h : w.Sound S env verifies) {p : SignerPromise}
    (hp : w.signerPromise = some p)
    (hpending : ∀ outcome, p ≠ .settled outcome) {outcome : Except String Signer}
    (hout : ∀ signer, outcome = .ok signer → signer.Configured S env) :
    (w.settle outcome).Sound S env verifies := by
  obtain ⟨hcalls, hjobs⟩ := h.idle (by simpa [hp] using hpending)
  refine ⟨fun q hq => by cases hq; exact hout, ?_, fun c hc o ho => ?_, ?_, h.commands⟩
  · have honce := h.once
    rw [hp] at honce
    exact honce
  · have hnone := hcalls c hc
    rw [hnone] at ho
    cases ho
  · intro job hjob
    rw [Process.settle, hjobs] at hjob
    cases hjob

theorem Sound.resume (h : w.Sound S env verifies) {outcome : Except String Signer}
    (hp : w.signerPromise = some (.settled outcome)) (n : ℕ) :
    ({ w with calls := w.calls.set n ⟨some outcome⟩ } : Process Tx).Sound S env verifies := by
  refine ⟨h.promise, h.once, fun c hc o ho => ?_, h.jobs, h.commands⟩
  obtain hc | rfl := List.mem_or_eq_of_mem_set hc
  · exact h.calls c hc o ho
  · cases ho
    exact hp

/-- One more call of `signTransaction`, with what KMS is asked for it. -/
theorem Sound.sign (h : w.Sound S env verifies) (job : Job Tx) {keyId : String}
    (hp : w.signerPromise = some (.settled (.ok ⟨job.address, some keyId⟩)))
    (hjob : job.Sound S verifies) :
    ({ w with
        jobs := w.jobs ++ [job]
        signCommands := w.signCommands ++ (job.command S keyId).toList } : Process Tx).Sound
      S env verifies := by
  refine ⟨h.promise, h.once, h.calls, fun j hj => ?_, fun keyId' hkey => ?_⟩
  · obtain hj | hj := List.mem_append.mp hj
    · exact h.jobs j hj
    · obtain rfl := List.mem_singleton.mp hj
      exact ⟨hjob, keyId, hp⟩
  · have hsame : some keyId = some keyId' := (h.promise _ hp _ rfl).1.trans hkey
    rw [Option.some.inj hsame, List.filterMap_append, h.commands keyId' hkey]
    cases hcommand : job.command S keyId' with
    | none => rw [List.filterMap_cons_none hcommand]; rfl
    | some command => rw [List.filterMap_cons_some hcommand]; rfl

theorem Sound.answered (h : w.Sound S env verifies) {j : ℕ} {job job' : Job Tx}
    (hj : w.jobs[j]? = some job) (haddress : job'.address = job.address) (hxdr : job'.xdr = job.xdr)
    (hpassphrase : job'.networkPassphrase = job.networkPassphrase)
    (hsound : job'.Sound S verifies) :
    ({ w with jobs := w.jobs.set j job' } : Process Tx).Sound S env verifies := by
  refine ⟨h.promise, h.once, h.calls, fun i hi => ?_, fun keyId hkey => ?_⟩
  · obtain hi | rfl := List.mem_or_eq_of_mem_set hi
    · exact h.jobs i hi
    · rw [haddress]
      exact ⟨hsound, (h.jobs job (List.mem_of_getElem? hj)).2⟩
  · have hcommand : job'.command S keyId = job.command S keyId := by
      rw [Job.command, Job.command, hxdr, hpassphrase]
    have hmap : (w.jobs.set j job').map (Job.command S keyId) =
        w.jobs.map (Job.command S keyId) := by
      obtain ⟨hlt, hget⟩ := List.getElem?_eq_some_iff.mp hj
      rw [List.map_set, hcommand, ← hget]
      have hlt' : j < (w.jobs.map (Job.command S keyId)).length := by simpa using hlt
      have hmapped : Job.command S keyId w.jobs[j] = (w.jobs.map (Job.command S keyId))[j] := by
        rw [List.getElem_map]
      rw [hmapped, List.set_getElem_self]
    rw [h.commands keyId hkey]
    calc w.jobs.filterMap (Job.command S keyId)
        = (w.jobs.map (Job.command S keyId)).filterMap id := by rw [List.filterMap_map]; rfl
      _ = ((w.jobs.set j job').map (Job.command S keyId)).filterMap id := by rw [hmap]
      _ = (w.jobs.set j job').filterMap (Job.command S keyId) := by rw [List.filterMap_map]; rfl

theorem Sound.step (hS : S.Lawful verifies) (h : w.Sound S env verifies)
    (hs : step S env w l = some w') : w'.Sound S env verifies := by
  cases l with
  | call =>
    cases hs
    exact h.call
  | publicKey answer =>
    simp only [Process.step] at hs
    split at hs <;> cases hs
    rename_i keyId hp
    refine h.settle hp (by simp) fun signer hsigner => ?_
    cases hderive : deriveStellarAddress S keyId answer with
    | error message =>
      rw [hderive] at hsigner
      cases hsigner
    | ok address =>
      rw [hderive] at hsigner
      cases hsigner
      obtain ⟨-, rawPublicKey, -, -, hlength, haddress⟩ := deriveStellarAddress_eq_ok hderive
      exact ⟨(h.promise _ hp).symm, fun _ _ => ⟨rawPublicKey, hlength, haddress⟩⟩
  | secretKey stdout =>
    simp only [Process.step] at hs
    split at hs <;> cases hs
    rename_i hp
    refine h.settle hp (by simp) fun signer hsigner => ?_
    cases haddress : (resolveDeployerSecretKey env stdout).bind S.createEd25519Signer with
    | error message =>
      rw [haddress] at hsigner
      cases hsigner
    | ok address =>
      rw [haddress] at hsigner
      cases hsigner
      exact ⟨(h.promise _ hp).symm, fun _ hkey => by cases hkey⟩
  | resume n =>
    simp only [Process.step] at hs
    split at hs <;> cases hs
    rename_i outcome _ hp
    exact h.resume hp n
  | sign n xdr networkPassphrase =>
    simp only [Process.step] at hs
    split at hs
    · rename_i address keyId hcall
      have hp := h.calls _ (List.mem_of_getElem? hcall) _ rfl
      cases hsign : signTransaction S xdr networkPassphrase with
      | error result =>
        rw [hsign] at hs
        cases hs
        have hnext := h.sign ⟨address, xdr, networkPassphrase, .inr result⟩ hp
          (.inl (signTransaction_eq_error hsign))
        simpa [Job.command, hsign, Except.toOption] using hnext
      | ok tx =>
        rw [hsign] at hs
        cases hs
        have hnext := h.sign ⟨address, xdr, networkPassphrase, .inl tx⟩ hp hsign
        simpa [Job.command, hsign, Except.toOption] using hnext
    · cases hs
  | signature j answer =>
    simp only [Process.step] at hs
    split at hs
    · rename_i job hj
      split at hs <;> cases hs
      rename_i tx hstate
      refine h.answered hj rfl rfl rfl ?_
      have hsign : signTransaction S job.xdr job.networkPassphrase = .ok tx := by
        have hjob := (h.jobs job (List.mem_of_getElem? hj)).1
        rwa [Job.Sound, hstate] at hjob
      exact (attachSignature_signs_or_refuses hS job.address job.xdr tx answer).symm.imp_right
        fun hsigns => ⟨tx, hsign, hsigns⟩
    · cases hs

end Process

/-- **The facilitator signs validly**: in every run of the process, whatever comes back from KMS
and in whatever order, the key is sent for at most once, all calls get the same signer or all
get the same exception, KMS is asked to sign the hash of each transaction that was parsed and
nothing else, and a call of `signTransaction` returns the transaction with a valid signature of
that signer's address, or as it came with an error. -/
theorem signs_validly (hS : S.Lawful verifies) {ls : List Label} {w : Process Tx}
    (h : exec (Process.step S env) (.start Tx) ls = some w) :
    w.publicKeyCommands.length + w.cliRuns ≤ 1 ∧
    (∀ c ∈ w.calls, ∀ c' ∈ w.calls, ∀ outcome outcome', c.outcome = some outcome →
      c'.outcome = some outcome' → outcome = outcome') ∧
    (∀ keyId, truthy env.FACILITATOR_KMS_KEY_ID = some keyId →
      w.signCommands = w.jobs.filterMap (Job.command S keyId)) ∧
    ∀ job ∈ w.jobs, ∀ result, job.state = .inr result →
      S.Derives job.address ∧
      (result.Refuses job.xdr ∨
        ∃ tx, signTransaction S job.xdr job.networkPassphrase = .ok tx ∧
          result.Signs S verifies job.address tx) := by
  have hw : w.Sound S env verifies := invariant_of_exec (H := fun _ => True) Process.sound_start
    (fun _ _ _ ha _ hs => ha.step hS hs) (fun _ _ => trivial) h
  refine ⟨hw.once.trans (by split <;> omega), ?_, hw.commands, ?_⟩
  · intro c hc c' hc' outcome outcome' ho ho'
    have hsame := (hw.calls c hc outcome ho).symm.trans (hw.calls c' hc' outcome' ho')
    simpa using hsame
  · intro job hjob result hresult
    obtain ⟨hsound, keyId, hp⟩ := hw.jobs job hjob
    rw [Job.Sound, hresult] at hsound
    exact ⟨(hw.promise _ hp _ rfl).2 keyId rfl, hsound⟩

end Results

/-! A transaction is its text and what is attached to it, and there is one signature for each
text. -/

def exampleSignature (message : List UInt8) : List UInt8 := List.replicate 64 (message.headD 0)

def exampleSdk : Sdk (String × List (List UInt8)) where
  parse xdr _ := if xdr = "" then .error "unexpected end of input" else .ok (xdr, [])
  hash tx := tx.1.toUTF8.toList
  toXDR tx := tx.1
  signatures tx := tx.2
  addSignature tx _ signature :=
    if signature = exampleSignature tx.1.toUTF8.toList then .ok (tx.1, tx.2 ++ [signature])
    else .error "Invalid signature"
  encodeEd25519PublicKey rawPublicKey := "G" ++ toString rawPublicKey.length
  createEd25519Signer secretKey := .ok ("G" ++ secretKey)

theorem exampleSdk_lawful :
    exampleSdk.Lawful fun _ message signature => signature = exampleSignature message := by
  constructor <;> intro tx tx' address signature hadd <;> simp only [exampleSdk] at hadd ⊢ <;>
    split at hadd <;> cases hadd
  · assumption
  · rfl
  · rfl

def exampleEnv : Env := ⟨none, some "key"⟩

/-- KMS answers for another text first. -/
def exampleRun : List Label :=
  [.call, .call, .publicKey (.ok (some (List.replicate 44 7))), .resume 1,
    .sign 1 "first" (some "Test"), .sign 1 "second" none, .sign 1 "third" (some "Test"),
    .signature 2 (.ok (some (exampleSignature "first".toUTF8.toList))),
    .signature 0 (.ok (some (exampleSignature "first".toUTF8.toList))), .call, .resume 2]

theorem signs_validly_example :
    ∃ w, exec (Process.step exampleSdk exampleEnv) (.start _) exampleRun = some w ∧
      w.jobs.map (fun job => job.state.getRight?.map SignResult.error) =
        [some none, some (some "networkPassphrase is required to sign"),
          some (some "Invalid signature")] ∧
      w.signCommands = w.jobs.filterMap (Job.command exampleSdk "key") := by
  obtain ⟨w, hw, herrors⟩ :
      ∃ w, exec (Process.step exampleSdk exampleEnv) (.start _) exampleRun = some w ∧
        w.jobs.map (fun job => job.state.getRight?.map SignResult.error) =
          [some none, some (some "networkPassphrase is required to sign"),
            some (some "Invalid signature")] :=
    exists_exec_of_any (by decide +kernel)
  exact ⟨w, hw, herrors, (signs_validly exampleSdk_lawful hw).2.2.1 "key" (by decide)⟩

end KonfirmBackend.FacilitatorSigner
