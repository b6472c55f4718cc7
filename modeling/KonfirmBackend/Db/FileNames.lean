import Mathlib.Data.List.Lex
import Mathlib.Data.List.Sort
import Mathlib.Data.String.Basic

/-!
# The files of the migrations

Which files of a directory are pending, and in which order. They are sorted as strings of
UTF-16 code units, and as files: with the suffix that all of them have.

## Main definitions

- `Directory` — the files as a run finds them
- `pendingUpFiles` — the function of the source, on a listing

## Main results

- `mem_pendingUpFiles_iff` — which files are pending
- `pairwise_pendingUpFiles` — they come in the order of their names as files
- `pairwise_pending_names` — where that is the order of the migrations' names
-/

namespace KonfirmBackend.Migrate

/-- A file of the directory, with what is in it. -/
structure Script where
  file : String
  sql : String
deriving DecidableEq

/-- `MIGRATIONS_DIR` as a run finds it, in the order in which the system lists it. -/
structure Directory where
  path : String
  files : List Script
  distinct : (files.map Script.file).Nodup

def Directory.listing (dir : Directory) : List String := dir.files.map Script.file

/-- The string without the suffix, if it ends in it. -/
def stripSuffix (suffix s : String) : Option String :=
  if suffix.toList <:+ s.toList then
    some (String.ofList (s.toList.take (s.toList.length - suffix.toList.length)))
  else none

/-- `file.replace(/\.up\.sql$/, '')`. -/
def migrationName (file : String) : String := (stripSuffix ".up.sql" file).getD file

/-- The UTF-16 code units of a string. -/
def codeUnits (s : String) : List ℕ :=
  s.toList.flatMap fun c =>
    if c.toNat < 0x10000 then [c.toNat]
    else [0xD800 + (c.toNat - 0x10000) / 0x400, 0xDC00 + (c.toNat - 0x10000) % 0x400]

/-- The order of strings in the source's language. -/
def Precedes (s t : String) : Prop := codeUnits s ≤ codeUnits t

instance : DecidableRel Precedes := fun s t => inferInstanceAs (Decidable (codeUnits s ≤ codeUnits t))

/-- `Array.prototype.sort` without a comparison. -/
def sort (strings : List String) : List String := strings.insertionSort Precedes

/-- `pendingUpFiles`, on what `readdirSync` returned. -/
def pendingUpFiles (listing applied : List String) : List String :=
  (sort (listing.filter fun f => (stripSuffix ".up.sql" f).isSome)).filter fun f =>
    migrationName f ∉ applied

/-! ## Suffixes -/

theorem stripSuffix_eq_some_iff (suffix s name : String) :
    stripSuffix suffix s = some name ↔ s = name ++ suffix := by
  rw [stripSuffix]
  constructor
  · intro h
    split at h
    · rename_i hsuffix
      obtain ⟨front, hfront⟩ := hsuffix
      obtain rfl := Option.some.inj h
      rw [← String.toList_inj, String.toList_append, String.toList_ofList, ← hfront,
        List.length_append, Nat.add_sub_cancel, List.take_left]
    · cases h
  · rintro rfl
    rw [if_pos (by rw [String.toList_append]; exact List.suffix_append _ _), String.toList_append,
      List.length_append, Nat.add_sub_cancel, List.take_left, String.ofList_toList]

@[simp] theorem stripSuffix_append (suffix name : String) :
    stripSuffix suffix (name ++ suffix) = some name :=
  (stripSuffix_eq_some_iff suffix _ name).mpr rfl

/-- No file is both for applying and for reverting. -/
theorem stripSuffix_up_down (name : String) : stripSuffix ".up.sql" (name ++ ".down.sql") = none := by
  rw [Option.eq_none_iff_forall_ne_some]
  intro other h
  rw [stripSuffix_eq_some_iff, ← String.toList_inj, String.toList_append, String.toList_append] at h
  have hlast := congrArg (fun l => l.reverse.take 6) h
  simp only [List.reverse_append] at hlast
  rw [List.take_append_of_le_length (by decide), List.take_append_of_le_length (by decide)] at hlast
  revert hlast
  decide

theorem migrationName_append (name : String) : migrationName (name ++ ".up.sql") = name := by
  rw [migrationName, stripSuffix_append, Option.getD_some]

/-! ## The pending files -/

instance : Std.Total Precedes := ⟨fun _ _ => le_total _ _⟩

instance : IsTrans String Precedes := ⟨fun _ _ _ => le_trans⟩

theorem mem_pendingUpFiles_iff (listing applied : List String) (file : String) :
    file ∈ pendingUpFiles listing applied ↔
      file ∈ listing ∧ ∃ name, file = name ++ ".up.sql" ∧ name ∉ applied := by
  rw [pendingUpFiles, List.mem_filter, sort, (List.perm_insertionSort _ _).mem_iff, List.mem_filter,
    Option.isSome_iff_exists, decide_eq_true_iff, and_assoc]
  refine and_congr_right fun _ => ?_
  constructor
  · rintro ⟨⟨name, hname⟩, hpending⟩
    obtain rfl := (stripSuffix_eq_some_iff _ _ _).mp hname
    rw [migrationName_append] at hpending
    exact ⟨name, rfl, hpending⟩
  · rintro ⟨name, rfl, hpending⟩
    exact ⟨⟨name, stripSuffix_append _ _⟩, by rwa [migrationName_append]⟩

/-- The pending files are sorted by their names as files. -/
theorem pairwise_pendingUpFiles (listing applied : List String) :
    (pendingUpFiles listing applied).Pairwise Precedes :=
  (List.pairwise_insertionSort Precedes _).filter _

/-- Their migrations are distinct if the files are. -/
theorem nodup_pendingUpFiles {listing : List String} (h : listing.Nodup) (applied : List String) :
    ((pendingUpFiles listing applied).map migrationName).Nodup := by
  have hnodup : (pendingUpFiles listing applied).Nodup :=
    ((List.perm_insertionSort _ _).nodup_iff.mpr (h.filter _)).filter _
  refine List.Nodup.map_on ?_ hnodup
  intro file hfile file' hfile' hname
  obtain ⟨-, name, rfl, -⟩ := (mem_pendingUpFiles_iff _ _ _).mp hfile
  obtain ⟨-, name', rfl, -⟩ := (mem_pendingUpFiles_iff _ _ _).mp hfile'
  rw [migrationName_append, migrationName_append] at hname
  rw [hname]

/-! ## The order of files and of names -/

/-- A suffix below all that comes before it does not disturb the order. -/
theorem append_lt_append_iff {d : ℕ} {suffix u v : List ℕ} (hu : ∀ a ∈ u, d < a)
    (hv : ∀ b ∈ v, d < b) : u ++ d :: suffix < v ++ d :: suffix ↔ u < v := by
  induction u generalizing v with
  | nil =>
    cases v with
    | nil => exact iff_of_false (lt_irrefl _) (lt_irrefl _)
    | cons b v =>
      have hb : d < b := hv b List.mem_cons_self
      rw [List.nil_append, List.cons_append, List.cons_lt_cons_iff]
      exact iff_of_true (.inl hb) (List.nil_lt_cons b v)
  | cons a u ih =>
    have ha : d < a := hu a List.mem_cons_self
    cases v with
    | nil =>
      rw [List.nil_append, List.cons_append, List.cons_lt_cons_iff]
      refine iff_of_false ?_ (List.not_lt_nil _)
      rintro (hlt | ⟨heq, -⟩)
      · exact absurd hlt (Nat.lt_asymm ha)
      · exact ha.ne' heq
    | cons b v =>
      have hrest := ih (fun c hc => hu c (List.mem_cons_of_mem _ hc)) fun c hc =>
        hv c (List.mem_cons_of_mem _ hc)
      rw [List.cons_append, List.cons_append, List.cons_lt_cons_iff, List.cons_lt_cons_iff, hrest]

/-- A name of characters above the dot, such as letters, digits and underscores. -/
def Plain (name : String) : Prop := ∀ c ∈ name.toList, '.' < c

theorem codeUnits_append (s t : String) : codeUnits (s ++ t) = codeUnits s ++ codeUnits t := by
  rw [codeUnits, String.toList_append, List.flatMap_append, codeUnits, codeUnits]

theorem Plain.lt_of_mem_codeUnits {name : String} (h : Plain name) : ∀ u ∈ codeUnits name, 46 < u := by
  intro u hu
  obtain ⟨c, hc, huc⟩ := List.mem_flatMap.mp hu
  have hdot : 46 < c.toNat := h c hc
  split at huc
  · obtain rfl := List.mem_singleton.mp huc
    exact hdot
  · simp only [List.mem_cons, List.not_mem_nil, or_false] at huc
    omega

/-- Between plain names, the order of the files is the order of the names. -/
theorem precedes_upFile_iff {name name' : String} (h : Plain name) (h' : Plain name') :
    Precedes (name ++ ".up.sql") (name' ++ ".up.sql") ↔ Precedes name name' := by
  rw [Precedes, Precedes, codeUnits_append, codeUnits_append, ← not_lt, ← not_lt]
  exact not_congr (append_lt_append_iff h'.lt_of_mem_codeUnits h.lt_of_mem_codeUnits)

/-- The pending migrations are sorted by their names where these are plain. -/
theorem pairwise_pending_names {listing applied : List String}
    (h : ∀ file ∈ pendingUpFiles listing applied, Plain (migrationName file)) :
    ((pendingUpFiles listing applied).map migrationName).Pairwise Precedes := by
  rw [List.pairwise_map]
  refine (pairwise_pendingUpFiles listing applied).imp_of_mem ?_
  intro file file' hfile hfile' hle
  have hplain := h file hfile
  have hplain' := h file' hfile'
  obtain ⟨-, name, rfl, -⟩ := (mem_pendingUpFiles_iff _ _ _).mp hfile
  obtain ⟨-, name', rfl, -⟩ := (mem_pendingUpFiles_iff _ _ _).mp hfile'
  rw [migrationName_append] at hplain hplain' ⊢
  rw [migrationName_append]
  exact (precedes_upFile_iff hplain hplain').mp hle

end KonfirmBackend.Migrate
