import TrustCopilot.Library.Trace
import TrustCopilot.Sending

/-! The intake service: rooms opened by a token until they expire, and the files uploaded to
them. `sha256Hex` stands for SHA-256 in hexadecimal; times are microseconds. -/
namespace TrustCopilot.IntakeRooms

open TrustCopilot.OrderedDict
open TrustCopilot.Trace
open TrustCopilot.Sending (takeChars)

inductive RoomStatus where
  | open
  | uploadsReceived
  | processing
  | completed
  | expired
  deriving DecidableEq, Repr

structure IntakeRoom where
  id : String
  accountId : String
  contactEmail : String
  token : String
  status : RoomStatus := .open
  createdAt : ℤ
  expiresAt : ℤ
  trustNote : String
  ndaRequired : Bool := false
  ndaAccepted : Bool := false
  deriving DecidableEq, Repr

structure UploadRecord where
  id : String
  roomId : String
  filename : String
  contentType : String
  sizeBytes : ℕ
  contentHash : String
  storageKey : String
  uploadedAt : ℤ
  uploaderContext : String
  deriving DecidableEq, Repr

def supportedTypes : List String :=
  ["application/pdf", "text/csv",
    "application/vnd.openxmlformats-officedocument.spreadsheetml.sheet",
    "application/vnd.openxmlformats-officedocument.wordprocessingml.document",
    "text/plain", "application/json"]

def maxFileSize : ℕ := 50 * 1024 * 1024

def roomLifetime : ℤ := 7 * 86400000000

def isExpired (now : ℤ) (room : IntakeRoom) : Bool := now > room.expiresAt

structure IntakeService where
  rooms : Table IntakeRoom.id
  uploads : Dict String (List UploadRecord)

def IntakeService.new : IntakeService := ⟨Table.empty, Dict.empty⟩

structure RoomRequest where
  accountId : String
  contactEmail : String
  trustNote : String := ""
  ndaRequired : Bool := false
  deriving DecidableEq, Repr

def newRoom (now : ℤ) (id token : String) (req : RoomRequest) : IntakeRoom where
  id := id
  accountId := req.accountId
  contactEmail := req.contactEmail
  token := token
  createdAt := now
  expiresAt := now + roomLifetime
  trustNote :=
    if req.trustNote = "" then
      "Upload your security questionnaire and we'll return a completed proof pack."
    else req.trustNote
  ndaRequired := req.ndaRequired

def createRoom (s : IntakeService) (now : ℤ) (id token : String) (req : RoomRequest) :
    IntakeService where
  rooms := s.rooms.save (newRoom now id token req)
  uploads := s.uploads.set id []

/-- The room, if the token is its own and it has not expired. -/
def validateToken (s : IntakeService) (now : ℤ) (roomId token : String) : Option IntakeRoom :=
  match s.rooms.get? roomId with
  | none => none
  | some room =>
    if room.token ≠ token then none
    else if isExpired now room then none
    else some room

def acceptNda (s : IntakeService) (now : ℤ) (roomId token : String) : IntakeService × Bool :=
  match validateToken s now roomId token with
  | some room => ({ s with rooms := s.rooms.save { room with ndaAccepted := true } }, true)
  | none => (s, false)

structure UploadRequest where
  filename : String
  content : List UInt8
  contentType : String
  uploaderContext : String := ""
  deriving DecidableEq, Repr

inductive UploadResult where
  | ok (record : UploadRecord)
  | refused (message : String)
  | keyError
  deriving DecidableEq, Repr

section Uploads

variable (sha256Hex : List UInt8 → String)

def uploadRecord (now : ℤ) (recordId : String) (room : IntakeRoom) (req : UploadRequest) :
    UploadRecord where
  id := recordId
  roomId := room.id
  filename := req.filename
  contentType := req.contentType
  sizeBytes := req.content.length
  contentHash := sha256Hex req.content
  storageKey := "uploads/" ++ room.accountId ++ "/" ++ room.id ++ "/" ++
    takeChars 16 (sha256Hex req.content) ++ "_" ++ req.filename
  uploadedAt := now
  uploaderContext := req.uploaderContext

def refusal (room : IntakeRoom) (req : UploadRequest) : Option String :=
  if room.ndaRequired && !room.ndaAccepted then some "nda_not_accepted"
  else if req.contentType ∉ supportedTypes then some ("unsupported_type:" ++ req.contentType)
  else if req.content.length > maxFileSize then some "file_too_large"
  else none

def upload (s : IntakeService) (now : ℤ) (recordId roomId token : String)
    (req : UploadRequest) : IntakeService × UploadResult :=
  match validateToken s now roomId token with
  | none => (s, .refused "invalid_or_expired_token")
  | some room =>
    match refusal room req with
    | some message => (s, .refused message)
    | none =>
      let record := uploadRecord sha256Hex now recordId room req
      match s.uploads.get? roomId with
      | none => (s, .keyError)
      | some records =>
        ({ rooms := s.rooms.save { room with status := .uploadsReceived }
           uploads := s.uploads.set roomId (records ++ [record]) }, .ok record)

inductive Call where
  | createRoom (now : ℤ) (id token : String) (req : RoomRequest)
  | validateToken (now : ℤ) (roomId token : String)
  | acceptNda (now : ℤ) (roomId token : String)
  | upload (now : ℤ) (recordId roomId token : String) (req : UploadRequest)
  deriving DecidableEq, Repr

inductive Result where
  | created
  | validated (room : Option IntakeRoom)
  | accepted (done : Bool)
  | uploaded (result : UploadResult)
  deriving DecidableEq, Repr

def Result.failed : Result → Bool
  | .created => false
  | .validated room => room.isNone
  | .accepted done => !done
  | .uploaded (.ok _) => false
  | .uploaded _ => true

def perform (s : IntakeService) : Call → IntakeService × Result
  | .createRoom now id token req => (createRoom s now id token req, .created)
  | .validateToken now roomId token => (s, .validated (validateToken s now roomId token))
  | .acceptNda now roomId token =>
    let r := acceptNda s now roomId token
    (r.1, .accepted r.2)
  | .upload now recordId roomId token req =>
    let r := upload sha256Hex s now recordId roomId token req
    (r.1, .uploaded r.2)

def next (s : IntakeService) (c : Call) : IntakeService := (perform sha256Hex s c).1

def run (calls : List Call) : IntakeService :=
  runTrace (next sha256Hex) IntakeService.new calls

/-- The id of a new room is fresh. -/
def Enabled (s : IntakeService) : Call → Prop
  | .createRoom _ id _ _ => s.rooms.get? id = none
  | _ => True

instance (s : IntakeService) (c : Call) : Decidable (Enabled s c) :=
  match c with
  | .createRoom _ _ _ _ => inferInstanceAs (Decidable (_ = _))
  | .validateToken _ _ _ => isTrue trivial
  | .acceptNda _ _ _ => isTrue trivial
  | .upload _ _ _ _ _ => isTrue trivial

/-- The call presents the id of the room and its token, and the room has not expired. -/
def Presents (room : IntakeRoom) : Call → Prop
  | .createRoom _ _ _ _ => False
  | .validateToken now roomId token =>
    roomId = room.id ∧ token = room.token ∧ now ≤ room.expiresAt
  | .acceptNda now roomId token => roomId = room.id ∧ token = room.token ∧ now ≤ room.expiresAt
  | .upload now _ roomId token _ =>
    roomId = room.id ∧ token = room.token ∧ now ≤ room.expiresAt

/-! ### What a call changes -/

variable {sha256Hex} {s : IntakeService}

theorem validateToken_some {now : ℤ} {roomId token : String} {room : IntakeRoom}
    (h : validateToken s now roomId token = some room) :
    s.rooms.get? roomId = some room ∧ roomId = room.id ∧ token = room.token ∧
      now ≤ room.expiresAt := by
  rw [validateToken] at h
  split at h
  · cases h
  · next x hx =>
    split at h
    · cases h
    · next htoken =>
      split at h
      · cases h
      · next hexpired =>
        cases h
        refine ⟨hx, (Table.key_of_get? hx).symm, (not_not.1 htoken).symm, ?_⟩
        simpa [isExpired] using hexpired

theorem refusal_none {room : IntakeRoom} {req : UploadRequest} (h : refusal room req = none) :
    (room.ndaRequired = true → room.ndaAccepted = true) ∧ req.contentType ∈ supportedTypes ∧
      req.content.length ≤ maxFileSize := by
  rw [refusal] at h
  split at h
  · cases h
  · next hnda =>
    split at h
    · cases h
    · next htype =>
      split at h
      · cases h
      · next hsize =>
        refine ⟨fun hreq => ?_, not_not.1 htype, not_lt.1 hsize⟩
        simpa [hreq] using hnda

variable (sha256Hex) in
structure Admits (s : IntakeService) (room : IntakeRoom) (records : List UploadRecord)
    (record : UploadRecord) (c : Call) : Prop where
  found : s.rooms.get? room.id = some room
  listed : s.uploads.get? room.id = some records
  presents : Presents room c
  answer : (perform sha256Hex s c).2 = .uploaded (.ok record)
  nda : room.ndaRequired = true → room.ndaAccepted = true
  ownRoom : record.roomId = room.id
  supported : record.contentType ∈ supportedTypes
  size : record.sizeBytes ≤ maxFileSize

variable (sha256Hex) in
inductive Change (s : IntakeService) (c : Call) : IntakeService → Prop
  | same : Change s c s
  | created (room : IntakeRoom) : s.rooms.get? room.id = none → room.status = .open →
      Change s c ⟨s.rooms.save room, s.uploads.set room.id []⟩
  | signed (room : IntakeRoom) : s.rooms.get? room.id = some room → Presents room c →
      Change s c { s with rooms := s.rooms.save { room with ndaAccepted := true } }
  | uploaded (room : IntakeRoom) (records : List UploadRecord) (record : UploadRecord) :
      Admits sha256Hex s room records record c →
      Change s c
        { rooms := s.rooms.save { room with status := .uploadsReceived }
          uploads := s.uploads.set room.id (records ++ [record]) }

theorem next_change {c : Call} (hc : Enabled s c) :
    Change sha256Hex s c (next sha256Hex s c) := by
  cases c with
  | createRoom now id token req => exact .created (newRoom now id token req) hc rfl
  | validateToken now roomId token => exact .same
  | acceptNda now roomId token =>
    simp only [next, perform, acceptNda]
    cases hv : validateToken s now roomId token with
    | none => exact .same
    | some room =>
      obtain ⟨hget, hid, hpresents⟩ := validateToken_some hv
      exact .signed room (hid ▸ hget) ⟨hid, hpresents⟩
  | upload now recordId roomId token req =>
    simp only [next, perform, upload]
    cases hv : validateToken s now roomId token with
    | none => exact .same
    | some room =>
      obtain ⟨hget, hid, hpresents⟩ := validateToken_some hv
      simp only
      cases hr : refusal room req with
      | some message => exact .same
      | none =>
        obtain ⟨hnda, htype, hsize⟩ := refusal_none hr
        cases hu : s.uploads.get? roomId with
        | none => exact .same
        | some records =>
          subst hid
          refine .uploaded room records _
            ⟨hget, hu, ⟨rfl, hpresents⟩, ?_, hnda, rfl, htype, hsize⟩
          simp only [perform, upload, hv, hr, hu]

theorem failed_unchanged {c : Call} (h : (perform sha256Hex s c).2.failed = true) :
    (perform sha256Hex s c).1 = s := by
  cases c with
  | createRoom now id token req => cases h
  | validateToken now roomId token => rfl
  | acceptNda now roomId token =>
    simp only [perform, acceptNda] at h ⊢
    cases hv : validateToken s now roomId token with
    | none => rfl
    | some room =>
      rw [hv] at h
      cases h
  | upload now recordId roomId token req =>
    simp only [perform, upload] at h ⊢
    cases hv : validateToken s now roomId token with
    | none => rfl
    | some room =>
      simp only [hv] at h ⊢
      cases hr : refusal room req with
      | some message => rfl
      | none =>
        simp only [hr] at h ⊢
        cases hu : s.uploads.get? roomId with
        | none => rfl
        | some records =>
          rw [hu] at h
          cases h

/-! ### Runs -/

/-- A call that does not present a room leaves it and its uploads alone. -/
theorem unpresented_unchanged {c : Call} (hc : Enabled s c) {id : String} {room : IntakeRoom}
    (hroom : s.rooms.get? id = some room) (h : ¬ Presents room c) :
    (next sha256Hex s c).rooms.get? id = some room ∧
      (next sha256Hex s c).uploads.get? id = s.uploads.get? id := by
  have hother : ∀ x, s.rooms.get? x.id = some x → Presents x c → id ≠ x.id := by
    rintro x hx hpresents rfl
    rw [hx] at hroom
    cases hroom
    exact h hpresents
  have hchange := @next_change sha256Hex s c hc
  generalize next sha256Hex s c = s' at hchange ⊢
  cases hchange with
  | same => exact ⟨hroom, rfl⟩
  | created new hfresh _ =>
    have hne : id ≠ new.id := by
      rintro rfl
      rw [hfresh] at hroom
      cases hroom
    exact ⟨(Table.get?_save_other _ hne).trans hroom, Dict.get?_set_other _ hne _⟩
  | signed x hx hpresents =>
    refine ⟨?_, rfl⟩
    rw [Table.get?_save_other, hroom]
    exact hother x hx hpresents
  | uploaded x records record hadmits =>
    have hne := hother x hadmits.found hadmits.presents
    refine ⟨?_, Dict.get?_set_other _ hne _⟩
    rw [Table.get?_save_other, hroom]
    exact hne

variable (sha256Hex) in
/-- The record was stored by a call of the run that the room admitted. -/
def AcceptedUpload (calls : List Call) (id : String) (record : UploadRecord) : Prop :=
  ∃ before c room records, before ++ [c] <+: calls ∧ room.id = id ∧
    Admits sha256Hex (run sha256Hex before) room records record c

variable (sha256Hex) in
/-- The books of one room: its list is there, each record was accepted, and the status says
whether there are any. -/
structure Books (calls : List Call) (s : IntakeService) (id : String) : Prop where
  absent : s.rooms.get? id = none → s.uploads.get? id = none
  listed : ∀ room, s.rooms.get? id = some room → ∃ records, s.uploads.get? id = some records ∧
    (room.status = .uploadsReceived ↔ records ≠ []) ∧
    ∀ record ∈ records, AcceptedUpload sha256Hex calls id record

theorem acceptedUpload_later {calls : List Call} {id : String} {record : UploadRecord} (c : Call)
    (h : AcceptedUpload sha256Hex calls id record) :
    AcceptedUpload sha256Hex (calls ++ [c]) id record := by
  obtain ⟨before, c', room, records, hp, hrest⟩ := h
  exact ⟨before, c', room, records, hp.trans (List.prefix_append calls [c]), hrest⟩

theorem books_later {calls : List Call} {id : String} (c : Call)
    (h : Books sha256Hex calls s id) : Books sha256Hex (calls ++ [c]) s id where
  absent := h.absent
  listed room hroom := by
    obtain ⟨records, hrecords, hstatus, haccepted⟩ := h.listed room hroom
    exact ⟨records, hrecords, hstatus, fun r hr => acceptedUpload_later c (haccepted r hr)⟩

theorem books_elsewhere {calls : List Call} {s s' : IntakeService} {id : String}
    (h : Books sha256Hex calls s id) (hrooms : s'.rooms.get? id = s.rooms.get? id)
    (huploads : s'.uploads.get? id = s.uploads.get? id) : Books sha256Hex calls s' id where
  absent := by rw [hrooms, huploads]; exact h.absent
  listed := by rw [hrooms, huploads]; exact h.listed

theorem books_of_room {calls : List Call} {id : String} {room : IntakeRoom}
    {records : List UploadRecord} (hroom : s.rooms.get? id = some room)
    (hrecords : s.uploads.get? id = some records)
    (hstatus : room.status = .uploadsReceived ↔ records ≠ [])
    (haccepted : ∀ record ∈ records, AcceptedUpload sha256Hex calls id record) :
    Books sha256Hex calls s id where
  absent habsent := by
    rw [hroom] at habsent
    cases habsent
  listed x hx := by
    rw [hroom] at hx
    cases hx
    exact ⟨records, hrecords, hstatus, haccepted⟩

theorem books_next {calls : List Call} {c : Call} (hc : Enabled (run sha256Hex calls) c)
    {id : String} (h : Books sha256Hex calls (run sha256Hex calls) id) :
    Books sha256Hex (calls ++ [c]) (next sha256Hex (run sha256Hex calls) c) id := by
  have hlater := books_later c h
  have hchange := @next_change sha256Hex _ c hc
  generalize next sha256Hex (run sha256Hex calls) c = s' at hchange ⊢
  cases hchange with
  | same => exact hlater
  | created room hfresh hopen =>
    by_cases hid : id = room.id
    · subst hid
      refine books_of_room (Table.get?_save_self _ _) (Dict.get?_set_self _ _ _) ?_ ?_
      · rw [hopen]
        decide
      · intro record hr
        cases hr
    · exact books_elsewhere hlater (Table.get?_save_other _ hid) (Dict.get?_set_other _ hid _)
  | signed room hroom _ =>
    by_cases hid : id = room.id
    · subst hid
      obtain ⟨records, hrecords, hstatus, haccepted⟩ := hlater.listed room hroom
      exact books_of_room (Table.get?_save_self _ _) hrecords hstatus haccepted
    · exact books_elsewhere hlater (Table.get?_save_other _ hid) rfl
  | uploaded room records record hadmits =>
    by_cases hid : id = room.id
    · subst hid
      refine books_of_room (Table.get?_save_self _ _) (Dict.get?_set_self _ _ _)
        (by simp) ?_
      intro r hr
      rcases List.mem_append.1 hr with hold | hnew
      · obtain ⟨records', hrecords', -, haccepted⟩ := hlater.listed room hadmits.found
        rw [hadmits.listed] at hrecords'
        cases hrecords'
        exact haccepted r hold
      · cases List.mem_singleton.1 hnew
        exact ⟨calls, c, room, records, List.prefix_rfl, rfl, hadmits⟩
    · exact books_elsewhere hlater (Table.get?_save_other _ hid) (Dict.get?_set_other _ hid _)

theorem run_concat (calls : List Call) (c : Call) :
    run sha256Hex (calls ++ [c]) = next sha256Hex (run sha256Hex calls) c :=
  runTrace_concat IntakeService.new calls c

theorem run_books {calls : List Call}
    (h : ValidTrace Enabled (next sha256Hex) IntakeService.new calls) (id : String) :
    Books sha256Hex calls (run sha256Hex calls) id := by
  induction calls using List.reverseRecOn with
  | nil => exact ⟨fun _ => rfl, fun room hroom => by cases hroom⟩
  | append_singleton calls c ih =>
    obtain ⟨hcalls, hc⟩ := validTrace_concat.1 h
    rw [run_concat]
    exact books_next hc (ih hcalls)

variable (sha256Hex) in
structure IntakeSound (calls : List Call) : Prop where
  isolated : ∀ before c, before ++ [c] <+: calls → ∀ id room,
    (run sha256Hex before).rooms.get? id = some room → ¬ Presents room c →
    (run sha256Hex (before ++ [c])).rooms.get? id = some room ∧
    (run sha256Hex (before ++ [c])).uploads.get? id = (run sha256Hex before).uploads.get? id
  books : ∀ id, Books sha256Hex calls (run sha256Hex calls) id
  atomic : ∀ before c, before ++ [c] <+: calls →
    (perform sha256Hex (run sha256Hex before) c).2.failed = true →
    run sha256Hex (before ++ [c]) = run sha256Hex before

theorem intake_sound {calls : List Call}
    (h : ValidTrace Enabled (next sha256Hex) IntakeService.new calls) :
    IntakeSound sha256Hex calls where
  isolated before c hp id room hroom hpresents := by
    rw [run_concat]
    exact unpresented_unchanged (validTrace_concat.1 (validTrace_earlier hp h)).2 hroom hpresents
  books := run_books h
  atomic before c hp hfailed := by
    rw [run_concat]
    exact failed_unchanged hfailed

def sampleDigest : List UInt8 → String :=
  fun _ => "3a6eb0790f39ac87c94f3856b2dd2c5d110e6811602261a9a923d3bb23adc8b7"

def sampleFile : UploadRequest :=
  { filename := "q.pdf", content := [100, 97, 116, 97], contentType := "application/pdf" }

def ndaRoom : List Call :=
  [.createRoom 0 "room-1" "token-1"
      { accountId := "acc-1", contactEmail := "alice@acme.com", ndaRequired := true },
    .upload 1 "up-1" "room-1" "token-1" sampleFile,
    .acceptNda 2 "room-1" "token-1",
    .upload 3 "up-2" "room-1" "token-1" sampleFile,
    .upload 4 "up-3" "room-1" "token-2" sampleFile]

theorem nda_room_sound : IntakeSound sampleDigest ndaRoom := intake_sound (by decide)

end Uploads

end TrustCopilot.IntakeRooms
