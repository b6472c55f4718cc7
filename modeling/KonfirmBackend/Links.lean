import KonfirmBackend.Auth.Access
import KonfirmBackend.Db.FileNames
import KonfirmBackend.PayUri

/-!
# Links and their merchants

A link is inserted for the merchant whose session has been admitted, and is never changed
afterwards. A checkout joins it with the merchant's row as it is then, with the address and the
status that signups, `seed-merchant` and the admins have left there.

## Main definitions

- `StoredLink`, `create` — a row of `links`, and the INSERT
- `Shop`, `Shop.step` — the accounts and the links
- `Shop.payRow`, `Shop.getPublic` — the two queries of a checkout

## Main results

- `payable_link_of_session` — who has made a link that can be paid, and whom it pays
- `checkout_open_iff` — when a link can be paid
-/

namespace KonfirmBackend.Links

open Auth Payments SignedToken Transition

/-- The body of `POST /links`. -/
structure CreateLinkBody where
  amountUsdc : Option String
  currency : Option String
  description : Option String
  reusable : Option Bool
deriving DecidableEq

def linkCurrencies : List String := ["USDC", "EURC", "XLM"]

/-- The body that the pipe lets through. -/
def CreateLinkBody.Valid (body : CreateLinkBody) : Prop :=
  body.amountUsdc.all createLinkSchema ∧ body.currency.all (linkCurrencies.contains ·) ∧
    body.description.all fun s => decide ((Migrate.codeUnits s).length ≤ 500)

instance (body : CreateLinkBody) : Decidable body.Valid :=
  inferInstanceAs (Decidable (_ ∧ _ ∧ _))

/-- A `links` row. -/
structure StoredLink where
  id : ℕ
  merchantId : ℕ
  amountUsdc : Option String
  currency : String
  description : Option String
  reusable : Bool
  expiresAt : Option ℕ
  active : Bool
  createdAt : ℕ
deriving DecidableEq

/-- The row that `create` inserts, unless the amount overflows its column. -/
def create (merchantId : ℕ) (body : CreateLinkBody) (id now : ℕ) : Option StoredLink :=
  (body.amountUsdc.mapM fun amount => (numericUnits amount).map numericText).map fun stored =>
    { id := id
      merchantId := merchantId
      amountUsdc := stored
      currency := body.currency.getD "USDC"
      description := body.description
      reusable := body.reusable.getD true
      expiresAt := none
      active := true
      createdAt := now }

/-- The accounts with the tokens, the links, and the requests of `POST /links` between the
guard and the INSERT. -/
structure Shop (τ : Type) where
  access : Access τ
  links : List StoredLink
  creating : List (MerchantClaims × CreateLinkBody)

def Shop.start {τ : Type} (clock : ℕ) (db : AccountDb) (admins : List Admin) : Shop τ :=
  ⟨.start clock db admins, [], []⟩

inductive ShopAction (τ : Type)
  | access (a : AccessAction τ)
  /-- the query of `AuthGuard` for a `POST /links` with this body, then the pipe -/
  | post (i : ℕ) (body : CreateLinkBody)
  | insert (j linkId : ℕ)
  | insertFails (j : ℕ)
deriving DecidableEq

/-- What a public page shows of a link. -/
structure PublicLink where
  id : ℕ
  amountUsdc : Option String
  currency : String
  description : Option String
  active : Bool
  expiresAt : Option ℕ
  merchantName : String
  stellarBaseAddress : Option String
deriving DecidableEq

/-- The status column, by the values that its check allows. -/
def merchantStatus (status : String) : MerchantStatus :=
  if status = "active" then .active else if status = "suspended" then .suspended else .pending

/-- The columns of a link and of its merchant that a checkout reads. -/
def StoredLink.joined (link : StoredLink) (merchant : Account) : LinkRow where
  amountUsdc := link.amountUsdc
  currency := link.currency
  active := link.active
  expiresAt := link.expiresAt
  stellarBaseAddress := merchant.stellarBaseAddress
  merchantStatus := merchantStatus merchant.status

namespace Shop

variable {τ : Type}

section System

variable (S : Scheme String Claims τ) (env : Env)
  (compare : (password passwordHash : String) → Bool)

def step (w : Shop τ) : ShopAction τ → Option (Shop τ)
  | .access a => (w.access.step S env compare a).map fun access => { w with access := access }
  | .post i body => do
    let r ← w.access.guarded[i]?
    let access := { w.access with guarded := w.access.guarded.eraseIdx i }
    match checkStatus (w.access.db.statusOf r.claims.id) with
    | .error _ => some { w with access := access }
    | .ok () =>
      if body.Valid then
        some { w with access := access, creating := w.creating ++ [(r.claims, body)] }
      else some { w with access := access }
  | .insert j linkId => do
    let (c, body) ← w.creating[j]?
    let creating := w.creating.eraseIdx j
    if ∃ link ∈ w.links, link.id = linkId then none
    else if ¬w.access.db.HasId c.id then some { w with creating := creating }
    else match create c.id body linkId w.access.clock with
      | none => some { w with creating := creating }
      | some link => some { w with links := w.links ++ [link], creating := creating }
  | .insertFails j => (w.creating[j]?).map fun _ => { w with creating := w.creating.eraseIdx j }

end System

/-- `SELECT … FROM links WHERE id = $1`. -/
def link (w : Shop τ) (linkId : ℕ) : Option StoredLink :=
  w.links.find? fun link => decide (link.id = linkId)

/-- The SELECT of `loadPayableLink`. -/
def payRow (w : Shop τ) (linkId : ℕ) : Option LinkRow := do
  let link ← w.link linkId
  let merchant ← w.access.db.account link.merchantId
  return link.joined merchant

/-- `getPublic`; `none` is a link that is not found. -/
def getPublic (w : Shop τ) (linkId : ℕ) : Option PublicLink := do
  let link ← w.link linkId
  let merchant ← w.access.db.account link.merchantId
  return {
    id := link.id
    amountUsdc := link.amountUsdc
    currency := link.currency
    description := link.description
    active := link.active
    expiresAt := link.expiresAt
    merchantName := merchant.name
    stellarBaseAddress := merchant.stellarBaseAddress }

end Shop

/-! ## What a link is made of -/

theorem numericText_ne_empty (units : ℕ) : numericText units ≠ "" := by
  intro h
  have hdot : '.' ∈ (numericText units).toList := by simp [numericText]
  rw [h] at hdot
  cases hdot

theorem create_eq_some {merchantId id now : ℕ} {body : CreateLinkBody} {link : StoredLink}
    (h : create merchantId body id now = some link) :
    link.id = id ∧ link.merchantId = merchantId ∧ link.currency = body.currency.getD "USDC" ∧
      link.active = true ∧ link.expiresAt = none ∧
        ∀ text, link.amountUsdc = some text → ∃ amount units, body.amountUsdc = some amount ∧
          numericUnits amount = some units ∧ numericText units = text := by
  obtain ⟨stored, hstored, rfl⟩ := Option.map_eq_some_iff.mp h
  refine ⟨rfl, rfl, rfl, rfl, rfl, ?_⟩
  rintro text rfl
  cases hamount : body.amountUsdc with
  | none =>
    rw [hamount] at hstored
    cases hstored
  | some amount =>
    rw [hamount, Option.mapM_some] at hstored
    obtain ⟨text', htext, hsome⟩ := Option.map_eq_some_iff.mp hstored
    obtain rfl : text' = text := Option.some.inj hsome
    obtain ⟨units, hunits, rfl⟩ := Option.map_eq_some_iff.mp htext
    exact ⟨amount, units, rfl, hunits, rfl⟩

/-- The requests that the pipe lets through, as a checkout finds their rows. -/
theorem createLink_eq_joined {body : CreateLinkBody}
    (hdescription : body.description.all fun s => decide ((Migrate.codeUnits s).length ≤ 500))
    (merchant : Account) (id now : ℕ) :
    createLink body.amountUsdc body.currency merchant.stellarBaseAddress
        (merchantStatus merchant.status) =
      if body.Valid then (create merchant.id body id now).map (·.joined merchant) else none := by
  have hvalid : body.Valid ↔ body.amountUsdc.all createLinkSchema = true ∧
      body.currency.all (linkCurrencies.contains ·) = true := by
    simp [CreateLinkBody.Valid, hdescription]
  simp only [createLink, create, hvalid]
  by_cases hamount : body.amountUsdc.all createLinkSchema = true
  · by_cases hcurrency : body.currency.all (linkCurrencies.contains ·) = true
    · rw [if_pos ⟨hamount, hcurrency⟩]
      cases hstored : body.amountUsdc.mapM fun amount => (numericUnits amount).map numericText <;>
        simp_all [guard, linkCurrencies, StoredLink.joined]
    · simp_all [guard, linkCurrencies]
  · simp_all [guard]

/-- The row is one that `create` has inserted. -/
def StoredLink.Created (link : StoredLink) : Prop :=
  ∃ body now, body.Valid ∧ create link.merchantId body link.id now = some link

theorem StoredLink.Created.currency_mem {link : StoredLink} (h : link.Created) :
    link.currency ∈ linkCurrencies := by
  obtain ⟨body, now, ⟨-, hcurrency, -⟩, hcreate⟩ := h
  obtain ⟨-, -, heq, -⟩ := create_eq_some hcreate
  rw [heq]
  cases hbody : body.currency with
  | none => decide
  | some currency =>
    rw [hbody, Option.all_some] at hcurrency
    simpa using hcurrency

/-! ## What a step does -/

variable {τ : Type} {S : Scheme String Claims τ} {env : Env}
  {compare : (password passwordHash : String) → Bool} {w v : Shop τ} {l : ShopAction τ}

/-- The statement of the accounts behind an action. -/
def ShopAction.account : ShopAction τ → Option (AccessAction τ)
  | .access a => some a
  | .post i _ => some (.status i)
  | .insert .. | .insertFails _ => none

/-- The inserted row, with the request that it is for. -/
def Creates (e : Shop τ × ShopAction τ × Shop τ) (c : MerchantClaims) (body : CreateLinkBody)
    (link : StoredLink) : Prop :=
  ∃ j, e.2.1 = .insert j link.id ∧ e.1.creating[j]? = some (c, body) ∧
    create c.id body link.id e.1.access.clock = some link ∧ e.2.2.links = e.1.links ++ [link]

/-- The step has found these claims to be a merchant's. -/
def VettedBy (compare : (password passwordHash : String) → Bool)
    (e : Shop τ × ShopAction τ × Shop τ) (c : MerchantClaims) : Prop :=
  ∃ a, e.2.1 = .access a ∧ Vetted compare (e.1.access, a, e.2.2.access) c

/-- Nobody presents a token that verifies and has not been signed here. -/
def Presents (S : Scheme String Claims τ) (env : Env)
    (e : Shop τ × ShopAction τ × Shop τ) : Prop :=
  ∀ a ∈ e.2.1.account, Presented S env (e.1.access, a, e.2.2.access)

instance [DecidableEq τ] (e : Shop τ × ShopAction τ × Shop τ) : Decidable (Presents S env e) :=
  inferInstanceAs (Decidable (∀ a ∈ e.2.1.account, _))

namespace Shop

theorem access_of_step (h : w.step S env compare l = some v) {a : AccessAction τ}
    (ha : l.account = some a) : w.access.step S env compare a = some v.access := by
  cases l with
  | access b =>
    obtain rfl : b = a := Option.some.inj ha
    obtain ⟨access, haccess, rfl⟩ := Option.map_eq_some_iff.mp h
    exact haccess
  | post i body =>
    obtain rfl : AccessAction.status i = a := Option.some.inj ha
    obtain ⟨r, hr, h⟩ := Option.bind_eq_some_iff.mp h
    have haccess : v.access = { w.access with guarded := w.access.guarded.eraseIdx i } := by
      dsimp only at h
      split at h
      · cases h
        rfl
      · split at h <;> cases h <;> rfl
    rw [haccess, Access.step, hr, Option.map_some]
  | insert j linkId | insertFails j => cases ha

theorem access_eq_of_step (h : w.step S env compare l = some v) (hl : l.account = none) :
    v.access = w.access := by
  cases l with
  | access a | post i body => cases hl
  | insert j linkId =>
    obtain ⟨⟨c, body⟩, -, h⟩ := Option.bind_eq_some_iff.mp h
    dsimp only at h
    split at h
    · cases h
    · split at h
      · cases h
        rfl
      · split at h <;> cases h <;> rfl
  | insertFails j =>
    obtain ⟨p, -, rfl⟩ := Option.map_eq_some_iff.mp h
    rfl

/-- A step keeps the links, or inserts one. -/
theorem links_of_step (h : w.step S env compare l = some v) : v.links = w.links ∨
    ∃ c body link, Creates (w, l, v) c body link ∧ ∀ link' ∈ w.links, link'.id ≠ link.id := by
  cases l with
  | access a =>
    obtain ⟨access, -, rfl⟩ := Option.map_eq_some_iff.mp h
    exact .inl rfl
  | post i body =>
    obtain ⟨r, -, h⟩ := Option.bind_eq_some_iff.mp h
    dsimp only at h
    split at h
    · cases h
      exact .inl rfl
    · split at h <;> cases h <;> exact .inl rfl
  | insert j linkId =>
    obtain ⟨⟨c, body⟩, hj, h⟩ := Option.bind_eq_some_iff.mp h
    dsimp only at h
    split at h
    · cases h
    case isFalse hfresh =>
      split at h
      · cases h
        exact .inl rfl
      · split at h
        · cases h
          exact .inl rfl
        case h_2 link hlink =>
          cases h
          obtain ⟨stored, -, rfl⟩ := Option.map_eq_some_iff.mp hlink
          exact .inr ⟨c, body, _, ⟨j, rfl, hj, hlink, rfl⟩,
            fun link' hmem hid => hfresh ⟨link', hmem, hid⟩⟩
  | insertFails j =>
    obtain ⟨p, -, rfl⟩ := Option.map_eq_some_iff.mp h
    exact .inl rfl

/-- A request waits for its INSERT when the guard and the pipe have let it through. -/
theorem creating_of_step (h : w.step S env compare l = some v) {p : MerchantClaims × CreateLinkBody}
    (hp : p ∈ v.creating) : p ∈ w.creating ∨
      p.2.Valid ∧ ∃ r ∈ w.access.guarded, r.claims = p.1 := by
  cases l with
  | access a =>
    obtain ⟨access, -, rfl⟩ := Option.map_eq_some_iff.mp h
    exact .inl hp
  | post i body =>
    obtain ⟨r, hr, h⟩ := Option.bind_eq_some_iff.mp h
    dsimp only at h
    split at h
    · cases h
      exact .inl hp
    · split at h
      case isTrue hvalid =>
        cases h
        refine (List.mem_append.mp hp).imp_right fun hnew => ?_
        obtain rfl := List.mem_singleton.mp hnew
        exact ⟨hvalid, r, List.mem_of_getElem? hr, rfl⟩
      · cases h
        exact .inl hp
  | insert j linkId =>
    obtain ⟨⟨c, body⟩, -, h⟩ := Option.bind_eq_some_iff.mp h
    dsimp only at h
    split at h
    · cases h
    · split at h
      · cases h
        exact .inl (List.mem_of_mem_eraseIdx hp)
      · split at h <;> cases h <;> exact .inl (List.mem_of_mem_eraseIdx hp)
  | insertFails j =>
    obtain ⟨q, -, rfl⟩ := Option.map_eq_some_iff.mp h
    exact .inl (List.mem_of_mem_eraseIdx hp)

/-! ## What is known of the tables -/

/-- Links are what `create` inserts, one for each id. -/
structure Tables (w : Shop τ) : Prop where
  creating : ∀ p ∈ w.creating, p.2.Valid
  ids : (w.links.map StoredLink.id).Nodup
  links : ∀ link ∈ w.links, link.Created

theorem tables_start (clock : ℕ) (db : AccountDb) (admins : List Admin) :
    Tables (Shop.start clock db admins : Shop τ) := by
  constructor <;> simp [Shop.start]

theorem Tables.step (hw : Tables w) (h : w.step S env compare l = some v) : Tables v := by
  refine ⟨fun p hp => ?creating, ?ids, ?links⟩
  case creating =>
    cases creating_of_step h hp with
    | inl hold => exact hw.creating p hold
    | inr hnew => exact hnew.1
  case ids =>
    obtain hsame | ⟨c, body, link, ⟨j, -, -, -, hlinks⟩, hfresh⟩ := links_of_step h
    · rw [hsame]
      exact hw.ids
    · exact hlinks ▸ FirstWrite.nodup_concat hw.ids hfresh
  case links =>
    obtain hsame | ⟨c, body, link, ⟨j, -, hj, hcreate, hlinks⟩, -⟩ := links_of_step h
    · rw [hsame]
      exact hw.links
    · intro link' hlink'
      rw [show v.links = w.links ++ [link] from hlinks] at hlink'
      cases List.mem_append.mp hlink' with
      | inl hold => exact hw.links link' hold
      | inr hnew =>
        obtain rfl := List.mem_singleton.mp hnew
        have hmerchant := (create_eq_some hcreate).2.1
        exact ⟨body, w.access.clock, hw.creating _ (List.mem_of_getElem? hj), hmerchant ▸ hcreate⟩

/-- A link that is there stays as it is. -/
theorem link_of_step {linkId : ℕ} {link : StoredLink} (h : w.step S env compare l = some v)
    (hlink : w.link linkId = some link) : v.link linkId = some link := by
  obtain hsame | ⟨c, body, link', ⟨j, -, -, -, hlinks⟩, -⟩ := links_of_step h
  · rw [Shop.link, hsame]
    exact hlink
  · rw [Shop.link, hlinks, List.find?_append, show w.links.find? _ = some link from hlink,
      Option.some_or]

/-- The tokens are those of the accounts, and behind every request past the guard is one. -/
structure Sessions (S : Scheme String Claims τ) (env : Env) (w : Shop τ) : Prop where
  access : Access.Sound S env w.access
  backed : Access.Backed env w.access
  creating : ∀ p ∈ w.creating, ∃ i ∈ w.access.issued, i.payload = .merchant p.1

theorem sessions_start {clock : ℕ} {db : AccountDb} {admins : List Admin} (hdb : db.Constrained) :
    Sessions S env (Shop.start clock db admins) where
  access := Access.sound_start hdb
  backed r hr := by cases hr
  creating p hp := by cases hp

/-- No step takes a token back. -/
theorem issued_of_step (h : w.step S env compare l = some v) :
    ∀ i ∈ w.access.issued, i ∈ v.access.issued := by
  cases hl : l.account with
  | none => exact fun i hi => access_eq_of_step h hl ▸ hi
  | some a => exact (Access.kept_of_step (access_of_step h hl)).issued

theorem Sessions.step (hS : S.Lawful) (hsecrets : SecretsSeparate S env) (hw : Sessions S env w)
    (hl : Presents S env (w, l, v)) (h : w.step S env compare l = some v) : Sessions S env v := by
  have haccess : Access.Sound S env v.access ∧ Access.Backed env v.access := by
    cases ha : l.account with
    | none =>
      rw [access_eq_of_step h ha]
      exact ⟨hw.access, hw.backed⟩
    | some a =>
      have hstep := access_of_step h ha
      exact ⟨hw.access.step hstep, hw.backed.step hS hsecrets hw.access (hl a ha) hstep⟩
  refine ⟨haccess.1, haccess.2, fun p hp => ?_⟩
  obtain hold | ⟨-, r, hr, hclaims⟩ := creating_of_step h hp
  · obtain ⟨i, hi, hpayload⟩ := hw.creating p hold
    exact ⟨i, issued_of_step h i hi, hpayload⟩
  · obtain ⟨-, i, hi, -, hpayload, -⟩ := hw.backed r hr
    exact ⟨i, issued_of_step h i hi, hclaims ▸ hpayload⟩

/-! ## Runs -/

variable {clock : ℕ} {db : AccountDb} {admins : List Admin} {ls ms : List (ShopAction τ)}

theorem tables_of_exec
    (h : exec (Shop.step S env compare) (Shop.start clock db admins) ls = some w) : Tables w :=
  invariant_of_exec (H := fun _ => True) (tables_start clock db admins)
    (fun _ _ _ ha _ hs => ha.step hs) (fun _ _ => trivial) h

/-- The accounts follow the run with the statements that they see. -/
theorem exec_access (h : exec (Shop.step S env compare) v ms = some w) :
    exec (Access.step S env compare) v.access (ms.filterMap ShopAction.account) =
      some w.access := by
  have hfollows : ∃ x, exec (Access.step S env compare) v.access
      (ms.filterMap ShopAction.account) = some x ∧ w.access = x :=
    exec_filterMap (R := fun (w : Shop τ) x => w.access = x) (H := fun _ => True)
      (fun a l b x hx _ hs hl => (access_eq_of_step hs hl).trans hx)
      (fun a l b x m hx _ hs hl => ⟨b.access, hx ▸ access_of_step hs hl, rfl⟩)
      rfl (fun _ _ => trivial) h
  obtain ⟨x, hx, rfl⟩ := hfollows
  exact hx

/-- Nothing is signed that some step has not vetted. -/
theorem exists_vetted_of_exec
    (h : exec (Shop.step S env compare) (Shop.start clock db admins) ls = some w)
    {i : Issue String Claims τ} (hi : i ∈ w.access.issued) {c : MerchantClaims}
    (hc : i.payload = .merchant c) :
    ∃ e ∈ trace (Shop.step S env compare) (Shop.start clock db admins) ls,
      VettedBy compare e c := by
  obtain ⟨⟨a, l, b⟩, he, hbefore, hafter⟩ := exists_step_of_exec
    (P := fun w : Shop τ => w.access.Claimed (.merchant c)) h
    (by simp [Shop.start, Access.start, Access.Claimed]) (.inr ⟨i, hi, hc⟩)
  have hstep := (reaches_of_mem_trace (fun _ _ => trivial) he).2.2
  refine ⟨_, he, ?_⟩
  cases hl : l.account with
  | none =>
    rw [access_eq_of_step hstep hl] at hafter
    exact absurd hafter hbefore
  | some l' =>
    obtain ⟨c', hc', hvetted⟩ | ⟨c', hc', -⟩ :=
      Access.vetted_of_step (access_of_step hstep hl) hbefore hafter
    · obtain rfl : c = c' := Claims.merchant.inj hc'
      cases l with
      | access l =>
        obtain rfl : l = l' := Option.some.inj hl
        exact ⟨l, rfl, hvetted⟩
      | post j body =>
        obtain rfl : AccessAction.status j = l' := Option.some.inj hl
        obtain ⟨x, hx, -⟩ | ⟨email, password, hx, -⟩ := hvetted
        · cases hx
        · cases hx
      | insert j linkId | insertFails j => cases hl
    · cases hc'

end Shop

/-! ## Whom a link pays -/

open Shop

theorem merchantStatus_eq_active_iff {status : String} :
    merchantStatus status = .active ↔ status = "active" := by
  unfold merchantStatus
  by_cases h : status = "active"
  · simp [h]
  · by_cases h' : status = "suspended" <;> simp [h, h']

/-- The link and the merchant behind a row that a checkout reads. -/
theorem payRow_eq_some {w : Shop τ} {linkId : ℕ} {row : LinkRow} (h : w.payRow linkId = some row) :
    ∃ link a, w.link linkId = some link ∧ w.access.db.account link.merchantId = some a ∧
      row = link.joined a := by
  obtain ⟨link, hlink, h⟩ := Option.bind_eq_some_iff.mp h
  obtain ⟨a, ha, h⟩ := Option.bind_eq_some_iff.mp h
  exact ⟨link, a, hlink, ha, (Option.some.inj h).symm⟩

/-- **A link that can be paid has been made by the merchant that is paid**: it was inserted for a
request of a session that some login or signup had vetted, and it asks for what the request asked
for. The merchant is active, and its address is that of the session, unless `seed-merchant` has
moved it. -/
theorem payable_link_of_session {clock : ℕ} {db : AccountDb} {admins : List Admin}
    {ls : List (ShopAction τ)} {linkId : ℕ} {pay : PayableLink} (hS : S.Lawful)
    (hsecrets : SecretsSeparate S env) (hdb : db.Constrained)
    (h : exec (Shop.step S env compare) (Shop.start clock db admins) ls = some w)
    (hpresents : ∀ e ∈ trace (Shop.step S env compare) (Shop.start clock db admins) ls,
      Presents S env e)
    (hpay : loadPayableLink (some (w.payRow linkId)) w.access.clock = .ok pay) :
    ∃ c body link, body.Valid ∧ link.id = linkId ∧
      (∃ e ∈ trace (Shop.step S env compare) (Shop.start clock db admins) ls,
        Creates e c body link) ∧
      (∃ e ∈ trace (Shop.step S env compare) (Shop.start clock db admins) ls,
        VettedBy compare e c) ∧
      (∃ amount units, body.amountUsdc = some amount ∧ numericUnits amount = some units ∧
        pay.amount = numericText units) ∧ pay.currency = body.currency.getD "USDC" ∧
      ∃ a, w.access.db.account c.id = some a ∧ a.email = c.email ∧ a.name = c.name ∧
        a.status = "active" ∧ a.stellarBaseAddress = some pay.destination ∧
          (c.email ∈ w.access.moved ∨ c.stellarBaseAddress = some pay.destination) := by
  cases hrow : w.payRow linkId with
  | none =>
    rw [hrow] at hpay
    cases hpay
  | some row =>
    obtain ⟨link, a, hlink, ha, rfl⟩ := payRow_eq_some hrow
    rw [hrow, loadPayableLink_eq_ok_iff] at hpay
    obtain ⟨-, -, hamount, haddress, hactive, hcurrency⟩ := hpay
    obtain ⟨hmem, rfl⟩ : link ∈ w.links ∧ link.id = linkId := FirstWrite.mem_of_lookup hlink
    -- the step that has inserted the link, and the session of its request
    obtain ⟨⟨u, l, v⟩, he, hbefore, hafter⟩ := exists_step_of_exec
      (P := fun w : Shop τ => link ∈ w.links) h (by simp [Shop.start]) hmem
    have hinv : ∀ e ∈ trace (Shop.step S env compare) (Shop.start clock db admins) ls,
        Tables e.1 ∧ Sessions S env e.1 := by
      refine (trace_forall_congr (I := fun w => Tables w ∧ Sessions S env w)
        (Q := fun _ => True) ⟨tables_start clock db admins, sessions_start hdb⟩ ?_
        (fun a l b hI _ _ => iff_of_true hI trivial) hpresents).mpr fun _ _ => trivial
      exact fun a l b hI hl hs => ⟨hI.1.step hs, hI.2.step hS hsecrets hl hs⟩
    obtain ⟨htables, hsessions⟩ := hinv _ he
    obtain hsame | ⟨c, body, link', hcreates, -⟩ :=
      links_of_step (reaches_of_mem_trace (fun _ _ => trivial) he).2.2
    · exact absurd (hsame ▸ hafter) hbefore
    obtain ⟨j, hinsert, hj, hcreate, hlinks⟩ := hcreates
    obtain rfl : link = link' := by
      rw [show v.links = u.links ++ [link'] from hlinks] at hafter
      exact List.mem_singleton.mp ((List.mem_append.mp hafter).resolve_left hbefore)
    obtain ⟨i, hi, hpayload⟩ := hsessions.creating _ (List.mem_of_getElem? hj)
    have hissued : i ∈ w.access.issued :=
      effect_of_exec (I := fun _ => True) (J := fun w : Shop τ => i ∈ w.access.issued)
        (H := fun _ => True) (Q := fun e => i ∈ e.1.access.issued) trivial
        (fun _ _ _ _ _ _ => trivial)
        (fun a l b _ _ hs hJ => issued_of_step hs i (hJ.elim id id)) (fun _ _ => trivial) h
        (.inr ⟨_, he, hi⟩)
    -- what the session says of the merchant
    have hw : Sessions S env w := invariant_of_exec (I := Sessions S env) (sessions_start hdb)
      (fun a l b hI hl hs => hI.step hS hsecrets hl hs) hpresents h
    have hvouched := hw.access.vouched i hissued
    rw [hpayload] at hvouched
    obtain ⟨b, hb, hid, hemail, hname, hmoved⟩ := hvouched
    obtain ⟨-, hmerchant, hcurr, -, -, htext⟩ := create_eq_some hcreate
    have haccount : w.access.db.account c.id = some b := hid ▸ hw.access.constrained.account_eq hb
    rw [hmerchant, haccount] at ha
    obtain rfl := Option.some.inj ha
    have hdestination : b.stellarBaseAddress = some pay.destination :=
      (Option.filter_eq_some_iff.mp haddress).1
    obtain ⟨amount, units, hbody, hunits, hnumeric⟩ :=
      htext _ (Option.filter_eq_some_iff.mp hamount).1
    exact ⟨c, body, link, htables.creating _ (List.mem_of_getElem? hj), rfl,
      ⟨_, he, j, hinsert, hj, hcreate, hlinks⟩, exists_vetted_of_exec h hissued hpayload,
      ⟨amount, units, hbody, hunits, hnumeric.symm⟩, hcurrency.symm.trans hcurr, b, haccount,
      hemail, hname, merchantStatus_eq_active_iff.mp hactive, hdestination,
      hmoved.imp_right fun hsame => hsame.symm.trans hdestination⟩

/-! ## When a link can be paid -/

/-- A link with an amount in a supported currency, of an active merchant with an address. -/
structure Open (link : StoredLink) (a : Account) : Prop where
  priced : link.amountUsdc.isSome
  supported : link.currency ≠ "EURC"
  addressed : (Withdrawals.truthy a.stellarBaseAddress).isSome
  active : a.status = "active"

theorem resolveAsset_isOk_iff {currency : String} (h : currency ∈ linkCurrencies) :
    (∃ asset, resolveAsset currency = .ok asset) ↔ currency ≠ "EURC" := by
  obtain rfl | rfl | rfl : currency = "USDC" ∨ currency = "EURC" ∨ currency = "XLM" := by
    simpa [linkCurrencies] using h
  all_goals simp [resolveAsset]

theorem buildPayUri_isOk_iff {found : Option (Option LinkRow)} {now : ℕ} {muxedId : String} :
    (∃ uri, buildPayUri found now muxedId = .ok uri) ↔
      ∃ pay, loadPayableLink found now = .ok pay ∧
        ∃ asset, resolveAsset pay.currency = .ok asset := by
  constructor
  · rintro ⟨uri, huri⟩
    obtain ⟨pay, asset, hpay, hasset, -⟩ := parse_payUri huri
    exact ⟨pay, hpay, asset, hasset⟩
  · rintro ⟨pay, hpay, asset, hasset⟩
    simp only [buildPayUri, hpay, hasset]
    exact ⟨_, rfl⟩

/-- What `loadPayableLink` makes of a link of the shop. -/
theorem loadPayableLink_iff {link : StoredLink} {a : Account} {pay : PayableLink} {linkId : ℕ}
    (hcreated : link.Created) (hlink : w.link linkId = some link)
    (ha : w.access.db.account link.merchantId = some a) :
    loadPayableLink (some (w.payRow linkId)) w.access.clock = .ok pay ↔
      link.amountUsdc = some pay.amount ∧
        Withdrawals.truthy a.stellarBaseAddress = some pay.destination ∧ a.status = "active" ∧
          link.currency = pay.currency := by
  obtain ⟨body, now, -, hcreate⟩ := hcreated
  obtain ⟨-, -, -, hactive, hexpires, htext⟩ := create_eq_some hcreate
  have hrow : w.payRow linkId = some (link.joined a) := by simp [Shop.payRow, hlink, ha]
  have htruthy : Withdrawals.truthy link.amountUsdc = link.amountUsdc := by
    cases hamount : link.amountUsdc with
    | none => rfl
    | some text =>
      obtain ⟨amount, units, -, -, rfl⟩ := htext text hamount
      simp [Withdrawals.truthy, numericText_ne_empty]
  rw [hrow, loadPayableLink_eq_ok_iff]
  simp only [StoredLink.joined, hactive, hexpires, htruthy, merchantStatus_eq_active_iff]
  simp

/-- **When a link can be paid**: whatever has happened since it was there, a code can be shown
for it exactly if it has an amount in a supported currency and its merchant, as the statements
since then have left it, has an address and is active; no transaction is prepared otherwise, and
what is prepared pays that address. Its public page is there all the time. -/
theorem checkout_open_iff {clock : ℕ} {db : AccountDb} {admins : List Admin}
    {ls ms : List (ShopAction τ)} {linkId : ℕ} {link : StoredLink} {a b : Account}
    (hv : exec (Shop.step S env compare) (Shop.start clock db admins) ls = some v)
    (hlink : v.link linkId = some link)
    (ha : v.access.db.account link.merchantId = some a)
    (h : exec (Shop.step S env compare) v ms = some w)
    (hb : (ms.filterMap ShopAction.account).foldl AccessAction.applyTo a = b) (muxedId : String) :
    ((∃ uri, buildPayUri (some (w.payRow linkId)) w.access.clock muxedId = .ok uri) ↔
      Open link b) ∧
    (∀ toXdr answers payerAddress tx, answers.link = some (w.payRow linkId) →
      answers.now = w.access.clock → prepareTx toXdr answers muxedId payerAddress = .ok tx →
        Open link b ∧ b.stellarBaseAddress = some tx.destination) ∧
    w.getPublic linkId = some ⟨linkId, link.amountUsdc, link.currency, link.description,
      link.active, link.expiresAt, b.name, b.stellarBaseAddress⟩ := by
  obtain ⟨hmem, hid⟩ : link ∈ v.links ∧ link.id = linkId := FirstWrite.mem_of_lookup hlink
  have hcreated : link.Created := (tables_of_exec hv).links link hmem
  have hstays : w.link linkId = some link :=
    invariant_of_exec (I := fun w : Shop τ => w.link linkId = some link) (H := fun _ => True)
      hlink (fun _ _ _ hI _ hs => link_of_step hs hI) (fun _ _ => trivial) h
  have haccount : w.access.db.account link.merchantId = some b :=
    hb ▸ Access.account_exec (exec_access h) ha
  have hloads : ∀ {pay}, loadPayableLink (some (w.payRow linkId)) w.access.clock = .ok pay ↔ _ :=
    loadPayableLink_iff hcreated hstays haccount
  have hasset := resolveAsset_isOk_iff hcreated.currency_mem
  refine ⟨?code, ?transaction, by simp [Shop.getPublic, hstays, haccount, hid]⟩
  case code =>
    rw [buildPayUri_isOk_iff]
    constructor
    · rintro ⟨pay, hpay, hsupported⟩
      obtain ⟨hamount, haddress, hactive, hcurrency⟩ := hloads.mp hpay
      exact ⟨by simp [hamount], hasset.mp (hcurrency ▸ hsupported), by simp [haddress], hactive⟩
    · rintro ⟨hpriced, hsupported, haddressed, hactive⟩
      obtain ⟨amount, hamount⟩ := Option.isSome_iff_exists.mp hpriced
      obtain ⟨destination, haddress⟩ := Option.isSome_iff_exists.mp haddressed
      exact ⟨⟨destination, amount, link.currency⟩,
        hloads.mpr ⟨hamount, haddress, hactive, rfl⟩, hasset.mpr hsupported⟩
  case transaction =>
    intro toXdr answers payerAddress tx hfound hnow htx
    obtain ⟨pay, asset, -, hpay, -, hresolved, -, hdestination⟩ := prepareTx_eq_ok htx
    rw [hfound, hnow] at hpay
    obtain ⟨hamount, haddress, hactive, hcurrency⟩ := hloads.mp hpay
    refine ⟨⟨by simp [hamount], hasset.mp ⟨asset, hcurrency ▸ hresolved⟩, by simp [haddress],
      hactive⟩, ?_⟩
    rw [hdestination]
    exact (Option.filter_eq_some_iff.mp haddress).1

/-! ## A link and a suspension -/

section Example

def exampleBody : CreateLinkBody := ⟨some "5", none, some "coffee", none⟩

/-- A merchant that has logged in makes a link. -/
def exampleLink : List (ShopAction (Plain String Claims)) :=
  exampleLogins.map .access ++ [.post 0 exampleBody, .insert 0 1]

def exampleShop : Shop (Plain String Claims) := .start 1500 exampleAccounts exampleAdmins

def examplePay : PayableLink :=
  ⟨"GBXBABMFZIJPTOFI6STUXA2FMEXDBB4URBD3VS5XDHKMFHGLJZ5WPQBB", "5.0000000", "USDC"⟩

theorem payable_link_of_session_example :
    ∃ e ∈ trace (Shop.step Scheme.plain exampleEnv (· == ·)) exampleShop exampleLink,
      ∃ c, VettedBy (· == ·) e c ∧ c.stellarBaseAddress = some examplePay.destination := by
  obtain ⟨w, hw, hpay, hmoved⟩ :
      ∃ w, exec (Shop.step Scheme.plain exampleEnv (· == ·)) exampleShop exampleLink = some w ∧
        (loadPayableLink (some (w.payRow 1)) w.access.clock).toOption = some examplePay ∧
          w.access.moved = [] :=
    exists_exec_of_any (by decide +kernel)
  have hok : loadPayableLink (some (w.payRow 1)) w.access.clock = .ok examplePay := by
    cases hload : loadPayableLink (some (w.payRow 1)) w.access.clock with
    | error e =>
      rw [hload] at hpay
      cases hpay
    | ok pay =>
      rw [hload] at hpay
      exact congrArg _ (Option.some.inj hpay)
  obtain ⟨c, body, link, -, -, -, ⟨e, he, hvetted⟩, -, -, a, -, -, -, -, -, haddress⟩ :=
    payable_link_of_session Scheme.plain_lawful exampleEnv_separate exampleAccounts_constrained hw
      (by decide +kernel) hok
  refine ⟨e, he, c, hvetted, haddress.resolve_left ?_⟩
  rw [hmoved]
  exact List.not_mem_nil

def exampleStored : StoredLink :=
  ⟨1, 0, some "5.0000000", "USDC", some "coffee", true, none, true, 6500⟩

def exampleAccount : Account :=
  (exampleSignup "first@example.com" none).account none "hash" "ABCDEFGH" 0 0

/-- The checkout finds the row of `createLink`, until the merchant is suspended. -/
theorem checkout_open_iff_example :
    ∃ v w, exec (Shop.step Scheme.plain exampleEnv (· == ·)) exampleShop exampleLink = some v ∧
      v.payRow 1 = createLink exampleBody.amountUsdc exampleBody.currency
        exampleAccount.stellarBaseAddress (merchantStatus exampleAccount.status) ∧
      exec (Shop.step Scheme.plain exampleEnv (· == ·)) v
        [.access (.setStatus 0 .suspended), .access (.tick 1000)] = some w ∧
      ¬∃ uri, buildPayUri (some (w.payRow 1)) w.access.clock "42" = .ok uri := by
  obtain ⟨v, hv, hlink, ha, hsome⟩ :
      ∃ v, exec (Shop.step Scheme.plain exampleEnv (· == ·)) exampleShop exampleLink = some v ∧
        v.link 1 = some exampleStored ∧
        v.access.db.account 0 = some exampleAccount ∧
        (exec (Shop.step Scheme.plain exampleEnv (· == ·)) v
          [.access (.setStatus 0 .suspended), .access (.tick 1000)]).isSome :=
    exists_exec_of_any (by decide +kernel)
  obtain ⟨w, hw⟩ := Option.isSome_iff_exists.mp hsome
  obtain ⟨hcode, -, -⟩ := checkout_open_iff hv hlink ha hw rfl "42"
  refine ⟨v, w, hv, ?_, hw, fun huri => absurd (hcode.mp huri).active (by decide +kernel)⟩
  rw [createLink_eq_joined (by decide +kernel) exampleAccount 1 6500, if_pos (by decide +kernel)]
  have hstored : create exampleAccount.id exampleBody 1 6500 = some exampleStored := by
    decide +kernel
  have hpay : v.payRow 1 = some (exampleStored.joined exampleAccount) := by
    simp [Shop.payRow, hlink, show exampleStored.merchantId = 0 from rfl, ha]
  rw [hstored, hpay]
  rfl

end Example

end KonfirmBackend.Links
