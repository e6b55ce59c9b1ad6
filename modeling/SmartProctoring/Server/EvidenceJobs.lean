import SmartProctoring.Lib.Processes
import SmartProctoring.Lib.Trail
import SmartProctoring.Server.Keyring

/-!
# Jobs on stored evidence

`moveOne` of `services/storage-move.ts`, `rekeyEvidence` of `services/rekey.ts` and
`purgeEvidenceRows` of `services/evidence.ts`, on one evidence row.  Each job reads the row and then
works through its steps: one call to a blob store, or one conditional update of the row, at a time.
Any number of jobs are at work together, and each acts on the row as it read it.

Every storage location is configured, and every host has the same keys, each with a current one of
its own.
-/

set_option autoImplicit false

namespace SmartProctoring

/-- The name of a storage location. -/
structure LocationName where
  raw : Nat
  deriving DecidableEq

def DEFAULT_STORAGE_LOCATION : LocationName := ⟨0⟩

def storedLocation (name : LocationName) : Option LocationName :=
  if name = DEFAULT_STORAGE_LOCATION then none else some name

/-- A storage key of one row: its `evidenceStorageKey` with a suffix, random when the image was
stored, some digits of a digest after a move. -/
inductive StorageKey (δ : Type)
  | stored (random : Nat)
  | moved (h : List δ)
  deriving DecidableEq

/-- A key in a storage location (`none` is the default one). -/
structure Place (δ : Type) where
  location : Option LocationName
  key : StorageKey δ
  deriving DecidableEq

structure EvidenceRow (δ η : Type) where
  id : Nat
  storageKey : StorageKey δ
  storageLocation : Option LocationName
  sha256 : η
  keyId : KeyId
  purgedAt : Option Int := none

namespace EvidenceRow

variable {δ η : Type}

def place (row : EvidenceRow δ η) : Place δ := ⟨row.storageLocation, row.storageKey⟩

/-- The condition of the conditional updates: the row is where it was read to be, and not purged. -/
def unchanged [DecidableEq δ] (now row : EvidenceRow δ η) : Bool :=
  now.storageKey = row.storageKey && now.storageLocation = row.storageLocation &&
  now.purgedAt = none

/-- What a job that lost its update looks for: the row was purged or is not at the place. -/
def elsewhere [DecidableEq δ] (now : EvidenceRow δ η) (p : Place δ) : Bool :=
  now.purgedAt.isSome || now.storageKey ≠ p.key || now.storageLocation ≠ p.location

end EvidenceRow

def evidenceAad (id : Nat) : Nat := id

/-- What the hosts share: the configured keys and the digests. -/
structure EvidenceHosts (δ η α : Type) where
  keys : List KeyId
  /-- The digits of the SHA-256 of a key and a target. -/
  digest : StorageKey δ → LocationName → List δ
  sha256Hex : α → η

namespace EvidenceHosts

variable {δ η α : Type}

def keyring (hosts : EvidenceHosts δ η α) (current : KeyId) : Keyring := ⟨current, hosts.keys⟩

variable [DecidableEq δ]

def movedStorageKey (hosts : EvidenceHosts δ η α) (key : StorageKey δ) (target : LocationName) :
    StorageKey δ :=
  let h := hosts.digest key target
  let new := StorageKey.moved (h.take 10)
  if new ≠ key then new else .moved ((h.drop 10).take 10)

/-- Where a move to `target` takes the blob. -/
def movedPlace (hosts : EvidenceHosts δ η α) (old : Place δ) (target : LocationName) : Place δ :=
  ⟨storedLocation target, hosts.movedStorageKey old.key target⟩

end EvidenceHosts

abbrev EvidenceBlob (α : Type) := Ciphertext Nat α

/-- The row and the blob stores. -/
structure EvidenceHome (δ η α : Type) where
  row : EvidenceRow δ η
  blobs : Place δ → Option (EvidenceBlob α)
  /-- Whether a purge has begun to delete the image. -/
  purging : Bool := false

namespace EvidenceHome

variable {δ η α : Type} [DecidableEq δ]

def put (home : EvidenceHome δ η α) (p : Place δ) (b : EvidenceBlob α) : EvidenceHome δ η α :=
  { home with blobs := Function.update home.blobs p (some b) }

def delete (home : EvidenceHome δ η α) (p : Place δ) : EvidenceHome δ η α :=
  { home with blobs := Function.update home.blobs p none }

end EvidenceHome

/-- Where a move stands. -/
inductive MovePhase (α : Type)
  | reading
  | putting (blob : EvidenceBlob α)
  /-- The copy is read back and compared. -/
  | checking (blob : EvidenceBlob α)
  /-- The copy was not as it should be. -/
  | removing
  | updating (blob : EvidenceBlob α)
  /-- The row had changed. -/
  | rereading
  | dropping
  /-- The old copy is deleted. -/
  | clearing

inductive RekeyPhase (α : Type)
  | reading
  | putting (next : EvidenceBlob α)
  | updating
  | rereading
  | dropping

inductive PurgePhase (δ : Type)
  | deleting
  | marking
  | deletingAgain (after : Option (Place δ))
  | deletingMoved (after : Place δ)

inductive JobOutcome
  | moved | rekeyed | purged | skipped | missing | failed
  deriving DecidableEq

/-- A job: the row as it was read, what is asked for, and where the job stands. -/
inductive EvidenceJob (δ η α : Type)
  | idle (last : Option JobOutcome)
  | move (current : KeyId) (row : EvidenceRow δ η) (target : LocationName) (phase : MovePhase α)
  | rekey (current : KeyId) (row : EvidenceRow δ η) (phase : RekeyPhase α)
  | purge (now : Int) (row : EvidenceRow δ η) (phase : PurgePhase δ)

section Steps

variable {δ η α : Type} [DecidableEq δ] [DecidableEq η]
variable (hosts : EvidenceHosts δ η α)

def moveOne (current : KeyId) (row : EvidenceRow δ η) (target : LocationName) (phase : MovePhase α)
    (home : EvidenceHome δ η α) : EvidenceHome δ η α × EvidenceJob δ η α :=
  let new := hosts.movedPlace row.place target
  match phase with
  | .reading =>
    match home.blobs row.place with
    | none => (home, .idle (some .missing))
    | some blob => (home, .move current row target (.putting blob))
  | .putting blob => (home.put new blob, .move current row target (.checking blob))
  | .checking blob =>
    let sum := (home.blobs new).bind fun back =>
      ((hosts.keyring current).decrypt back (evidenceAad row.id)).map hosts.sha256Hex
    (home, .move current row target (if sum = some row.sha256 then .updating blob else .removing))
  | .removing => (home.delete new, .idle (some .failed))
  | .updating blob =>
    if home.row.unchanged row then
      ({ home with row := { home.row with
          storageLocation := new.location, storageKey := new.key, keyId := blob.keyId } },
        .move current row target .clearing)
    else (home, .move current row target .rereading)
  | .rereading =>
    if home.row.elsewhere new then (home, .move current row target .dropping)
    else (home, .idle (some .skipped))
  | .dropping => (home.delete new, .idle (some .skipped))
  | .clearing => (home.delete row.place, .idle (some .moved))

def rekeyEvidence (current : KeyId) (row : EvidenceRow δ η) (phase : RekeyPhase α)
    (home : EvidenceHome δ η α) : EvidenceHome δ η α × EvidenceJob δ η α :=
  match phase with
  | .reading =>
    match home.blobs row.place with
    | none => (home, .idle (some .missing))
    | some blob =>
      -- the blob's header decides: an earlier run may have stopped after writing it
      if blob.keyId ≠ current then
        match (hosts.keyring current).decrypt blob (evidenceAad row.id) with
        | none => (home, .idle (some .failed))
        | some plain =>
          let next := (hosts.keyring current).encrypt plain (evidenceAad row.id)
          (home, .rekey current row (.putting next))
      else (home, .rekey current row .updating)
  | .putting next => (home.put row.place next, .rekey current row .updating)
  | .updating =>
    if home.row.unchanged row then
      ({ home with row := { home.row with keyId := current } }, .idle (some .rekeyed))
    else (home, .rekey current row .rereading)
  | .rereading =>
    if home.row.elsewhere row.place then (home, .rekey current row .dropping)
    else (home, .idle (some .skipped))
  | .dropping => (home.delete row.place, .idle (some .skipped))

def purgeEvidenceRows (now : Int) (row : EvidenceRow δ η) (phase : PurgePhase δ)
    (home : EvidenceHome δ η α) : EvidenceHome δ η α × EvidenceJob δ η α :=
  match phase with
  | .deleting =>
    if row.purgedAt.isSome then (home, .idle (some .skipped))
    else ({ home.delete row.place with purging := true }, .purge now row .marking)
  | .marking =>
    if home.row.purgedAt.isSome then (home, .purge now row (.deletingAgain none))
    else ({ home with row := { home.row with purgedAt := some now } },
      .purge now row (.deletingAgain (some home.row.place)))
  | .deletingAgain after =>
    (home.delete row.place,
      match after with
      | none => .idle (some .purged)
      | some after =>
        if after = row.place then .idle (some .purged) else .purge now row (.deletingMoved after))
  | .deletingMoved after => (home.delete after, .idle (some .purged))

/-- One step of a job. -/
def EvidenceJob.step (job : EvidenceJob δ η α) (home : EvidenceHome δ η α) :
    EvidenceHome δ η α × EvidenceJob δ η α :=
  match job with
  | .idle last => (home, .idle last)
  | .move current row target phase => moveOne hosts current row target phase home
  | .rekey current row phase => rekeyEvidence hosts current row phase home
  | .purge now row phase => purgeEvidenceRows now row phase home

end Steps

/-! ## The jobs together -/

/-- What a job is asked to do. -/
inductive JobRequest
  | move (current : KeyId) (target : LocationName)
  | rekey (current : KeyId)
  | purge (now : Int)

/-- An image as `storeEvidence` left it. -/
structure StoredImage (α : Type) where
  id : Nat
  data : α
  random : Nat
  location : Option LocationName
  keyId : KeyId

/-- Job `k` reads the row and begins, or takes its next step. -/
inductive JobInput (ι : Type)
  | start (k : ι) (request : JobRequest)
  | step (k : ι)

abbrev EvidenceState (δ η α ι : Type) := Processes (EvidenceHome δ η α) ι (EvidenceJob δ η α)

section Machine

variable {δ η α ι : Type} [DecidableEq δ] [DecidableEq η]

def StoredImage.home (image : StoredImage α) (hosts : EvidenceHosts δ η α) :
    EvidenceHome δ η α where
  row :=
    { id := image.id, storageKey := .stored image.random, storageLocation := image.location,
      sha256 := hosts.sha256Hex image.data, keyId := image.keyId }
  blobs := Function.update (fun _ => none) ⟨image.location, .stored image.random⟩
    (some ⟨image.keyId, evidenceAad image.id, image.data⟩)

/-- The job as it begins, on the row it reads. -/
def JobRequest.job (request : JobRequest) (row : EvidenceRow δ η) : EvidenceJob δ η α :=
  match request with
  | .move current target => .move current row target .reading
  | .rekey current => .rekey current row .reading
  | .purge now => .purge now row .deleting

/-- The host knows its own current key, and the query that lists the rows returns this one. -/
def JobRequest.selects (request : JobRequest) (hosts : EvidenceHosts δ η α)
    (row : EvidenceRow δ η) : Prop :=
  match request with
  | .move current target =>
    current ∈ hosts.keys ∧ row.purgedAt = none ∧ row.storageLocation ≠ storedLocation target
  | .rekey current => current ∈ hosts.keys ∧ row.purgedAt = none ∧ row.keyId ≠ current
  | .purge _ => True

instance (request : JobRequest) (hosts : EvidenceHosts δ η α) (row : EvidenceRow δ η) :
    Decidable (request.selects hosts row) := by
  cases request <;> unfold JobRequest.selects <;> infer_instance

def EvidenceJob.isIdle : EvidenceJob δ η α → Bool
  | .idle _ => true
  | _ => false

def evidenceJobs [DecidableEq ι] (hosts : EvidenceHosts δ η α) (image : StoredImage α) :
    Machine (EvidenceState δ η α ι) (JobInput ι) where
  init s := s = ⟨image.home hosts, fun _ => .idle none⟩
  step
    | .start k request, s => s.move k (s.shared, request.job s.shared.row)
    | .step k, s => s.move k ((s.loc k).step hosts s.shared)
  enabled
    | .start k request, s => (s.loc k).isIdle = true ∧ request.selects hosts s.shared.row
    | .step _, _ => True

instance [DecidableEq ι] (hosts : EvidenceHosts δ η α) (image : StoredImage α) (x : JobInput ι)
    (s : EvidenceState δ η α ι) : Decidable ((evidenceJobs hosts image).enabled x s) := by
  cases x <;> unfold evidenceJobs <;> infer_instance

end Machine

end SmartProctoring
