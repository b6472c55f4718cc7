import KonfirmBackend.Admin.Audit
import KonfirmBackend.Db.FileNames
import KonfirmBackend.Lib.FirstWrite
import KonfirmBackend.Lib.Transition

/-!
# The registry behind the discovery manifest

Anyone may submit a listing, which waits until an admin approves or rejects it; an admin may
change its mind. The manifest shows what is approved. Konfirm's own entry has been approved by
the migration that creates the table. Requests that are refused change nothing and are no
steps here.

## Main definitions

- `ListingRow`, `Registry`, `Registry.step` — the table and its statements
- `getManifest` — the manifest of the rows that the query returns
- `published` — what has been submitted and was approved last

## Main results

- `manifest_of_history` — the manifest is a function of what was submitted and decided
-/

namespace KonfirmBackend.Bazaar

open Admin (ListingStatus ListingStatusBody)
open FirstWrite Migrate Transition

inductive ListingKind
  | facilitator
  | resource
deriving DecidableEq

/-- An element of `supportedKinds`, of which only Konfirm's entry has one. -/
structure SupportedKind where
  x402Version : ℕ
  scheme : String
  network : String
  areFeesSponsored : Bool
deriving DecidableEq

structure Extra where
  settleUrl : Option String
  supportedKinds : Option (List SupportedKind)
deriving DecidableEq

/-- The columns of a listing that never change, `created_at` apart. -/
structure Listing where
  id : String
  kind : ListingKind
  name : Option String
  url : String
  description : String
  network : String
  scheme : String
  contactEmail : Option String
  extra : Extra
deriving DecidableEq

/-- A `bazaar_listings` row. -/
structure ListingRow extends Listing where
  status : ListingStatus
  reviewedBy : Option String
  reviewedAt : Option ℕ
  createdAt : ℕ
deriving DecidableEq

structure SubmitListingInput where
  kind : ListingKind
  name : Option String
  url : String
  description : String
  network : Option String
  scheme : Option String
  contactEmail : Option String
deriving DecidableEq

/-- A string's length in the source's language. -/
def jsLength (s : String) : ℕ := (codeUnits s).length

/-- `isUrl` and `isEmail` are zod's checks. -/
def submitListingSchema (isUrl isEmail : String → Bool) (input : SubmitListingInput) : Bool :=
  (input.name.all fun s => decide (jsLength s ≤ 200)) && isUrl input.url &&
    decide (1 ≤ jsLength input.description) && decide (jsLength input.description ≤ 2000) &&
    (input.network.all fun s => decide (jsLength s ≤ 100)) &&
    (input.scheme.all fun s => decide (jsLength s ≤ 50)) && input.contactEmail.all isEmail

/-- What `submit` inserts, with the defaults of the statement and of the table. -/
def SubmitListingInput.listing (input : SubmitListingInput) (id : String) : Listing where
  id := id
  kind := input.kind
  name := input.name
  url := input.url
  description := input.description
  network := input.network.getD "stellar:testnet"
  scheme := input.scheme.getD "exact"
  contactEmail := input.contactEmail
  extra := ⟨none, none⟩

/-- The entry of the migration; the table draws its id. -/
def konfirmListing (id : String) : Listing where
  id := id
  kind := .facilitator
  name := some "Konfirm x402 Facilitator"
  url := "https://api-production-cc675.up.railway.app/x402/verify"
  description := "A compliance-aware x402 facilitator for the Stellar exact scheme: standard Soroban auth-entry verification and settlement (via the official @x402/stellar reference implementation), plus Konfirm's own local-blocklist + on-chain compliance check on every verify/settle call — the same check already protecting Konfirm's Freighter checkout and SEP-7/QR payment paths."
  network := "stellar:testnet"
  scheme := "exact"
  contactEmail := none
  extra := ⟨some "https://api-production-cc675.up.railway.app/x402/settle",
    some [⟨2, "exact", "stellar:testnet", true⟩]⟩

structure Registry where
  clock : ℕ
  admins : List String
  listings : List ListingRow
deriving DecidableEq

/-- The table as the migration leaves it. -/
def Registry.migrated (clock : ℕ) (admins : List String) (konfirmId : String) : Registry where
  clock := clock
  admins := admins
  listings := [⟨konfirmListing konfirmId, .approved, none, some clock, clock⟩]

inductive RegistryAction
  | tick (milliseconds : ℕ)
  | submit (id : String) (input : SubmitListingInput)
  | setStatus (id : String) (status : ListingStatusBody) (adminId : String)
deriving DecidableEq

section System

variable (isUrl isEmail : String → Bool)

/-- `none` where the request is refused, or the id could not have been drawn. -/
def Registry.step (w : Registry) : RegistryAction → Option Registry
  | .tick ms => some { w with clock := w.clock + ms }
  | .submit id input =>
    if ¬submitListingSchema isUrl isEmail input ∨ ∃ r ∈ w.listings, r.id = id then none
    else some { w with
      listings := w.listings ++ [⟨input.listing id, .pending, none, none, w.clock⟩] }
  | .setStatus id status adminId =>
    if adminId ∉ w.admins ∨ ¬∃ r ∈ w.listings, r.id = id then none
    else some { w with listings := w.listings.map fun r =>
      if r.id = id then
        { r with status := status.status, reviewedBy := some adminId, reviewedAt := some w.clock }
      else r }

end System

/-! ## The manifest -/

structure FacilitatorEntry where
  name : Option String
  description : String
  verifyUrl : String
  settleUrl : Option String
  supportedKinds : List SupportedKind
deriving DecidableEq

structure ResourceEntry where
  url : String
  description : String
  network : String
  scheme : String
deriving DecidableEq

structure Manifest where
  bazaarVersion : String
  description : String
  generatedAt : ℕ
  facilitators : List FacilitatorEntry
  resources : List ResourceEntry
deriving DecidableEq

def Listing.facilitatorEntry (l : Listing) : FacilitatorEntry where
  name := l.name
  description := l.description
  verifyUrl := l.url
  settleUrl := l.extra.settleUrl
  supportedKinds := l.extra.supportedKinds.getD []

def Listing.resourceEntry (l : Listing) : ResourceEntry where
  url := l.url
  description := l.description
  network := l.network
  scheme := l.scheme

/-- `getManifest` on the rows of its query. -/
def getManifest (rows : List Listing) (now : ℕ) : Manifest where
  bazaarVersion := "0.1"
  description := "x402 Bazaar discovery manifest, generated from a live registry — submit a listing via POST /bazaar/listings."
  generatedAt := now
  facilitators := (rows.filter fun r => r.kind = .facilitator).map Listing.facilitatorEntry
  resources := (rows.filter fun r => r.kind = .resource).map Listing.resourceEntry

/-- What the query may return: the rows that are approved in the order of their times, those of
one time in any order. -/
structure Registry.Returns (w : Registry) (rows : List ListingRow) : Prop where
  approved : rows.Perm (w.listings.filter fun r => r.status = .approved)
  sorted : rows.Pairwise fun r s => r.createdAt ≤ s.createdAt

/-! ## What the manifest is for -/

/-- The listings that have been submitted, in their order. -/
def submissions (ls : List RegistryAction) : List Listing :=
  ls.filterMap fun l => match l with
    | .submit id input => some (input.listing id)
    | _ => none

/-- The status of a listing after an action. -/
def RegistryAction.decide (id : String) (status : ListingStatus) : RegistryAction → ListingStatus
  | .setStatus id' body _ => if id' = id then body.status else status
  | _ => status

/-- What was submitted or migrated, and the last decision on it was to approve it. -/
def published (konfirmId : String) (ls : List RegistryAction) : List Listing :=
  (if ls.foldl (RegistryAction.decide konfirmId) .approved = .approved then
    [konfirmListing konfirmId] else []) ++
  (submissions ls).filter fun l => ls.foldl (RegistryAction.decide l.id) .pending = .approved

variable {isUrl isEmail : String → Bool} {w v : Registry} {l : RegistryAction}
  {ls : List RegistryAction}

/-- The listings with their statuses. -/
def Registry.entries (w : Registry) : List (Listing × ListingStatus) :=
  w.listings.map fun r => (r.toListing, r.status)

theorem entries_of_submit {id : String} {input : SubmitListingInput}
    (h : w.step isUrl isEmail (.submit id input) = some v) :
    v.entries = w.entries ++ [(input.listing id, .pending)] ∧
      ∀ e ∈ w.entries, e.1.id ≠ id := by
  simp only [Registry.step] at h
  split at h
  · cases h
  case isFalse hok =>
    cases h
    rw [not_or] at hok
    refine ⟨by simp [Registry.entries], fun e he hid => ?_⟩
    obtain ⟨r, hr, rfl⟩ := List.mem_map.mp he
    exact hok.2 ⟨r, hr, hid⟩

theorem entries_of_setStatus {id adminId : String} {body : ListingStatusBody}
    (h : w.step isUrl isEmail (.setStatus id body adminId) = some v) :
    v.entries = w.entries.map (fun e =>
      (e.1, RegistryAction.decide e.1.id e.2 (.setStatus id body adminId))) ∧
      ∃ e ∈ w.entries, e.1.id = id := by
  simp only [Registry.step] at h
  split at h
  · cases h
  case isFalse hok =>
    cases h
    rw [not_or, not_not, not_not] at hok
    obtain ⟨-, r, hr, hid⟩ := hok
    refine ⟨?_, ⟨_, List.mem_map_of_mem hr, hid⟩⟩
    simp only [Registry.entries, List.map_map]
    refine List.map_congr_left fun r _ => ?_
    simp only [Function.comp_apply, RegistryAction.decide]
    by_cases hr : r.id = id
    · simp [hr]
    · simp [hr, Ne.symm hr]

/-- Nobody submits under an id that is taken. -/
theorem fresh_of_exec {w' : Registry} (h : exec (Registry.step isUrl isEmail) w ls = some w') :
    ∀ s ∈ submissions ls, ∀ e ∈ w.entries, e.1.id ≠ s.id := by
  induction ls generalizing w with
  | nil => simp [submissions]
  | cons l ls ih =>
    rw [exec_cons] at h
    obtain ⟨v, hv, hrest⟩ := Option.bind_eq_some_iff.mp h
    cases l with
    | tick ms =>
      cases hv
      have hfresh := ih hrest
      exact hfresh
    | submit id input =>
      obtain ⟨hentries, hfresh⟩ := entries_of_submit hv
      intro s hs e he
      simp only [submissions, List.filterMap_cons, List.mem_cons] at hs
      cases hs with
      | inl hnew => exact hnew ▸ hfresh e he
      | inr hlater =>
        exact ih hrest s hlater e (by rw [hentries]; exact List.mem_append_left _ he)
    | setStatus id body adminId =>
      obtain ⟨hentries, -⟩ := entries_of_setStatus hv
      intro s hs e he
      have hmem := List.mem_map_of_mem (f := fun e : Listing × ListingStatus =>
        (e.1, RegistryAction.decide e.1.id e.2 (.setStatus id body adminId))) he
      rw [← hentries] at hmem
      have hne := ih hrest s hs _ hmem
      exact hne

/-- **The table is a function of its history**: the listings in the order of their submission,
each with the last decision on it. -/
theorem entries_of_exec {w' : Registry} (h : exec (Registry.step isUrl isEmail) w ls = some w') :
    w'.entries = (w.entries ++ (submissions ls).map fun s => (s, ListingStatus.pending)).map
      fun e => (e.1, ls.foldl (RegistryAction.decide e.1.id) e.2) := by
  induction ls generalizing w with
  | nil =>
    obtain rfl : w = w' := by simpa using h
    simp [submissions]
  | cons l ls ih =>
    have hfresh := fresh_of_exec h
    rw [exec_cons] at h
    obtain ⟨v, hv, hrest⟩ := Option.bind_eq_some_iff.mp h
    rw [ih hrest]
    cases l with
    | tick ms =>
      cases hv
      rfl
    | submit id input =>
      obtain ⟨hentries, -⟩ := entries_of_submit hv
      simp [hentries, submissions, RegistryAction.decide]
    | setStatus id body adminId =>
      obtain ⟨hentries, e₀, he₀, hid⟩ := entries_of_setStatus hv
      have hpending : ∀ s ∈ submissions ls, s.id ≠ id := fun s hs hs' =>
        hfresh s hs e₀ he₀ (hid.trans hs'.symm)
      rw [hentries, List.map_append, List.map_append, List.map_map, List.map_map, List.map_map]
      congr 1
      refine List.map_congr_left fun s hs => ?_
      have hne : id ≠ s.id := (hpending s hs).symm
      simp [RegistryAction.decide, hne]

/-- The approved rows are what has been published. -/
theorem approved_of_exec {clock : ℕ} {admins : List String} {konfirmId : String}
    (h : exec (Registry.step isUrl isEmail) (.migrated clock admins konfirmId) ls = some w) :
    (w.listings.filter fun r => r.status = .approved).map ListingRow.toListing =
      published konfirmId ls := by
  have happroved : (w.listings.filter fun r => r.status = .approved).map ListingRow.toListing =
      (w.entries.filter fun e => e.2 = .approved).map Prod.fst := by
    simp only [Registry.entries, List.filter_map, List.map_map]
    rfl
  have hpublished : ∀ ss : List Listing,
      ((((ss.map fun s => (s, ListingStatus.pending)).map fun e =>
        (e.1, ls.foldl (RegistryAction.decide e.1.id) e.2)).filter fun e =>
          e.2 = .approved).map Prod.fst) =
      ss.filter fun s => ls.foldl (RegistryAction.decide s.id) .pending = .approved := by
    intro ss
    simp only [List.filter_map, List.map_map]
    exact List.map_id _
  have hkonfirm : (Registry.migrated clock admins konfirmId).entries =
      [(konfirmListing konfirmId, .approved)] := rfl
  rw [happroved, entries_of_exec h, hkonfirm, List.map_append, List.filter_append,
    List.map_append, hpublished, published]
  congr 1
  by_cases hlast : ls.foldl (RegistryAction.decide konfirmId) .approved = .approved
  · simp [hlast, konfirmListing]
  · simp [hlast, konfirmListing]

/-- Who waits for an approval and is approved at the end has been approved on the way. -/
theorem exists_approval {id : String} {status : ListingStatus} (hstatus : status ≠ .approved)
    (h : ls.foldl (RegistryAction.decide id) status = .approved) :
    ∃ adminId, RegistryAction.setStatus id .approved adminId ∈ ls := by
  induction ls generalizing status with
  | nil => exact absurd h hstatus
  | cons l ls ih =>
    by_cases hnext : l.decide id status = .approved
    · cases l with
      | tick ms => exact absurd hnext hstatus
      | submit id' input => exact absurd hnext hstatus
      | setStatus id' body adminId =>
        simp only [RegistryAction.decide] at hnext
        split at hnext
        case isTrue hid =>
          cases body with
          | approved => exact ⟨adminId, by rw [hid]; exact List.mem_cons_self⟩
          | rejected => cases hnext
        · exact absurd hnext hstatus
    · obtain ⟨adminId, hmem⟩ := ih hnext h
      exact ⟨adminId, List.mem_cons_of_mem _ hmem⟩

/-- The steps of a run have been accepted. -/
theorem accepted_of_exec {w' : Registry} (h : exec (Registry.step isUrl isEmail) w ls = some w') :
    (∀ id input, RegistryAction.submit id input ∈ ls →
      submitListingSchema isUrl isEmail input = true) ∧
    ∀ id body adminId, RegistryAction.setStatus id body adminId ∈ ls → adminId ∈ w.admins := by
  induction ls generalizing w with
  | nil => simp
  | cons l ls ih =>
    rw [exec_cons] at h
    obtain ⟨v, hv, hrest⟩ := Option.bind_eq_some_iff.mp h
    have hadmins : v.admins = w.admins := by
      cases l with
      | tick ms => cases hv; rfl
      | submit id input => simp only [Registry.step] at hv; split at hv <;> cases hv; rfl
      | setStatus id body adminId =>
        simp only [Registry.step] at hv; split at hv <;> cases hv; rfl
    obtain ⟨hsubmits, hdecisions⟩ := ih hrest
    rw [hadmins] at hdecisions
    refine ⟨fun id input hmem => ?_, fun id body adminId hmem => ?_⟩
    · cases hmem with
      | head =>
        simp only [Registry.step] at hv
        split at hv
        · cases hv
        case isFalse hok => exact not_not.mp (not_or.mp hok).1
      | tail _ hlater => exact hsubmits id input hlater
    · cases hmem with
      | head =>
        simp only [Registry.step] at hv
        split at hv
        · cases hv
        case isFalse hok => exact not_not.mp (not_or.mp hok).1
      | tail _ hlater => exact hdecisions id body adminId hlater

/-- **The manifest tells the history**: whatever the query returns among rows of one time, it
has exactly the entries of what was submitted and last approved, and of Konfirm's own listing
unless it was last rejected, in the order of submission if no two rows have one time. Whatever
is in it and is not Konfirm's own has been submitted as it is shown, and approved by an admin. -/
theorem manifest_of_history {clock now : ℕ} {admins : List String} {konfirmId : String}
    (h : exec (Registry.step isUrl isEmail) (.migrated clock admins konfirmId) ls = some w)
    {rows : List ListingRow} (hrows : w.Returns rows) :
    (getManifest (rows.map ListingRow.toListing) now).facilitators.Perm
      (getManifest (published konfirmId ls) now).facilitators ∧
    (getManifest (rows.map ListingRow.toListing) now).resources.Perm
      (getManifest (published konfirmId ls) now).resources ∧
    ((w.listings.map ListingRow.createdAt).Pairwise (· < ·) →
      getManifest (rows.map ListingRow.toListing) now =
        getManifest (published konfirmId ls) now) ∧
    ∀ l ∈ published konfirmId ls, l = konfirmListing konfirmId ∨
      ∃ input, .submit l.id input ∈ ls ∧ submitListingSchema isUrl isEmail input = true ∧
        l = input.listing l.id ∧ ∃ adminId ∈ admins, .setStatus l.id .approved adminId ∈ ls := by
  have hperm : (rows.map ListingRow.toListing).Perm (published konfirmId ls) := by
    rw [← approved_of_exec h]
    exact hrows.approved.map _
  refine ⟨(hperm.filter _).map _, (hperm.filter _).map _, fun hstrict => ?_, fun l hl => ?_⟩
  · have hsorted : (w.listings.filter fun r => r.status = .approved).Pairwise
        fun r s => r.createdAt < s.createdAt :=
      (List.pairwise_map.mp hstrict).sublist List.filter_sublist
    have hnodup : (w.listings.map ListingRow.createdAt).Nodup :=
      hstrict.imp fun hlt => Nat.ne_of_lt hlt
    have heq : rows = w.listings.filter fun r => r.status = .approved := by
      refine List.Perm.eq_of_pairwise (fun r s hr hs hle hge => ?_) hrows.sorted
        (hsorted.imp fun hlt => Nat.le_of_lt hlt) hrows.approved
      have hr' := List.mem_of_mem_filter (hrows.approved.subset hr)
      have hs' := List.mem_of_mem_filter hs
      exact List.inj_on_of_nodup_map hnodup hr' hs' (Nat.le_antisymm hle hge)
    rw [heq, approved_of_exec h]
  · obtain ⟨hsubmits, hdecisions⟩ := accepted_of_exec h
    rw [published, List.mem_append] at hl
    cases hl with
    | inl hkonfirm =>
      split at hkonfirm
      · exact .inl (List.mem_singleton.mp hkonfirm)
      · cases hkonfirm
    | inr hsubmitted =>
      obtain ⟨hmem, hlast⟩ := List.mem_filter.mp hsubmitted
      obtain ⟨adminId, hadmin⟩ := exists_approval (by decide) (of_decide_eq_true hlast)
      obtain ⟨a, ha, hlisting⟩ := List.mem_filterMap.mp hmem
      cases a with
      | submit id input =>
        obtain rfl : input.listing id = l := Option.some.inj hlisting
        exact .inr ⟨input, ha, hsubmits id input ha, rfl, adminId,
          hdecisions _ _ _ hadmin, hadmin⟩
      | tick ms => cases hlisting
      | setStatus id body adminId => cases hlisting

section Example

def exampleListing (kind : ListingKind) (url : String) : SubmitListingInput where
  kind := kind
  name := none
  url := url
  description := "A paid endpoint"
  network := none
  scheme := none
  contactEmail := none

/-- Three listings: one approved, one rejected after it was approved, one that waits. -/
def exampleReviews : List RegistryAction :=
  [.tick 10, .submit "a" (exampleListing .resource "https://a.example/paid"),
    .tick 10, .submit "b" (exampleListing .facilitator "https://b.example/verify"),
    .setStatus "b" .approved "admin", .tick 10,
    .submit "c" (exampleListing .resource "https://c.example/paid"),
    .setStatus "a" .approved "admin", .setStatus "b" .rejected "admin"]

theorem manifest_of_history_example :
    ∃ w, exec (Registry.step (fun _ => true) fun _ => true)
        (.migrated 0 ["admin"] "konfirm") exampleReviews = some w ∧
      getManifest ((w.listings.filter fun r => r.status = .approved).map ListingRow.toListing) 30 =
        getManifest [konfirmListing "konfirm",
          (exampleListing .resource "https://a.example/paid").listing "a"] 30 := by
  obtain ⟨w, hw, hsorted, hstrict⟩ :
      ∃ w, exec (Registry.step (fun _ => true) fun _ => true)
          (.migrated 0 ["admin"] "konfirm") exampleReviews = some w ∧
        ((w.listings.filter fun r => r.status = .approved).Pairwise fun r s =>
          r.createdAt ≤ s.createdAt) ∧ (w.listings.map ListingRow.createdAt).Pairwise (· < ·) :=
    exists_exec_of_any (by decide +kernel)
  refine ⟨w, hw, ?_⟩
  rw [(manifest_of_history hw ⟨.refl _, hsorted⟩).2.2.1 hstrict]
  congr 1

end Example

end KonfirmBackend.Bazaar
