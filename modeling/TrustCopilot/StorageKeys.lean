import TrustCopilot.IntakeRooms
import TrustCopilot.Library.Phrases

/-! The storage keys of the uploads. A key is a path whose last component is chosen by the client;
the components before it have no slash, so the key gives back the account, the room, the beginning
of the hash and the name of the file. -/
namespace TrustCopilot.StorageKeys

open TrustCopilot.OrderedDict
open TrustCopilot.Trace
open TrustCopilot.Sending (takeChars)
open TrustCopilot.Phrases
open TrustCopilot.IntakeRooms

def Component (s : String) : Prop := '/' ∉ s.toList

instance (s : String) : Decidable (Component s) :=
  inferInstanceAs (Decidable (¬ _))

/-! ### Reading a key back -/

def storageKey (accountId roomId digest filename : String) : String :=
  "uploads/" ++ accountId ++ "/" ++ roomId ++ "/" ++ takeChars 16 digest ++ "_" ++ filename

theorem takeChars_length {n : ℕ} {s : String} (h : n ≤ s.toList.length) :
    (takeChars n s).toList.length = n := by
  rw [takeChars, String.toList_ofList, List.length_take, min_eq_left h]

/-- A storage key has one reading. -/
theorem storageKey_inj {a b i j d e f g : String} (ha : Component a) (hb : Component b)
    (hi : Component i) (hj : Component j) (hd : 16 ≤ d.toList.length) (he : 16 ≤ e.toList.length)
    (h : storageKey a i d f = storageKey b j e g) :
    a = b ∧ i = j ∧ takeChars 16 d = takeChars 16 e ∧ f = g := by
  have hlist := congrArg String.toList h
  have hslash : "/".toList = ['/'] := by decide
  simp only [storageKey, String.toList_append, hslash, List.append_assoc, List.cons_append,
    List.nil_append] at hlist
  have hpath := List.append_cancel_left hlist
  obtain ⟨haccount, hrest⟩ := first_separator ha hb hpath
  obtain ⟨hroom, hname⟩ := first_separator hi hj hrest
  have hlen : (takeChars 16 d).toList.length = (takeChars 16 e).toList.length := by
    rw [takeChars_length hd, takeChars_length he]
  obtain ⟨hdigest, htail⟩ := List.append_inj hname hlen
  have hfile := List.append_cancel_left htail
  exact ⟨String.toList_injective haccount, String.toList_injective hroom,
    String.toList_injective hdigest, String.toList_injective hfile⟩

/-! ### The rooms of a run -/

section Runs

variable {sha256Hex : List UInt8 → String} {s : IntakeService}

/-- The ids that a call brings in have no slash. -/
def CleanCall : Call → Prop
  | .createRoom _ id _ req => Component id ∧ Component req.accountId
  | _ => True

instance (c : Call) : Decidable (CleanCall c) :=
  match c with
  | .createRoom _ _ _ _ => inferInstanceAs (Decidable (_ ∧ _))
  | .validateToken _ _ _ => isTrue trivial
  | .acceptNda _ _ _ => isTrue trivial
  | .upload _ _ _ _ _ => isTrue trivial

def CleanRooms (s : IntakeService) : Prop :=
  ∀ id room, s.rooms.get? id = some room → Component room.id ∧ Component room.accountId

theorem cleanRooms_save (h : CleanRooms s) (room : IntakeRoom)
    (hroom : Component room.id ∧ Component room.accountId)
    (uploads : Dict String (List UploadRecord)) : CleanRooms ⟨s.rooms.save room, uploads⟩ := by
  intro id x hx
  rw [Table.get?_save] at hx
  split at hx
  · cases hx
    exact hroom
  · exact h id x hx

theorem cleanRooms_next {c : Call} (hc : CleanCall c) (h : CleanRooms s) :
    CleanRooms (next sha256Hex s c) := by
  cases c with
  | createRoom now id token req => exact cleanRooms_save h (newRoom now id token req) hc _
  | validateToken now roomId token => exact h
  | acceptNda now roomId token =>
    simp only [next, perform, acceptNda]
    cases hv : validateToken s now roomId token with
    | none => exact h
    | some room =>
      exact cleanRooms_save h { room with ndaAccepted := true }
        (h _ room (validateToken_some hv).1) _
  | upload now recordId roomId token req =>
    simp only [next, perform, upload]
    cases hv : validateToken s now roomId token with
    | none => exact h
    | some room =>
      have hroom := h _ room (validateToken_some hv).1
      simp only
      cases refusal room req with
      | some message => exact h
      | none =>
        cases s.uploads.get? roomId with
        | none => exact h
        | some records => exact cleanRooms_save h { room with status := .uploadsReceived } hroom _

theorem run_cleanRooms {calls : List Call} (hclean : ∀ c ∈ calls, CleanCall c) :
    CleanRooms (run sha256Hex calls) := by
  induction calls using List.reverseRecOn with
  | nil => exact fun id room h => by cases h
  | append_singleton calls c ih =>
    rw [run_concat]
    exact cleanRooms_next (hclean c (by simp)) (ih fun d hd => hclean d (by simp [hd]))

/-- The record that answers an upload names the room that was found. -/
theorem record_of_answer {c : Call} {record : UploadRecord}
    (h : (perform sha256Hex s c).2 = .uploaded (.ok record)) :
    ∃ now recordId room req, s.rooms.get? room.id = some room ∧
      record = uploadRecord sha256Hex now recordId room req := by
  cases c with
  | createRoom now id token req => cases h
  | validateToken now roomId token => cases h
  | acceptNda now roomId token => cases h
  | upload now recordId roomId token req =>
    simp only [perform, upload] at h
    cases hv : validateToken s now roomId token with
    | none => rw [hv] at h; cases h
    | some room =>
      obtain ⟨hget, hid, -⟩ := validateToken_some hv
      simp only [hv] at h
      cases hr : refusal room req with
      | some message => rw [hr] at h; cases h
      | none =>
        simp only [hr] at h
        cases hu : s.uploads.get? roomId with
        | none => rw [hu] at h; cases h
        | some records =>
          rw [hu] at h
          cases h
          exact ⟨now, recordId, room, req, hid ▸ hget, rfl⟩

structure Keyed (sha256Hex : List UInt8 → String) (id : String) (record : UploadRecord) :
    Prop where
  room : Component id
  hashed : ∃ content, record.contentHash = sha256Hex content
  path : ∃ accountId, Component accountId ∧
    record.storageKey = storageKey accountId id record.contentHash record.filename

theorem stored_keyed {calls : List Call}
    (h : ValidTrace Enabled (next sha256Hex) IntakeService.new calls)
    (hclean : ∀ c ∈ calls, CleanCall c) {id : String} {records : List UploadRecord}
    (hstored : (run sha256Hex calls).uploads.get? id = some records) {record : UploadRecord}
    (hr : record ∈ records) : Keyed sha256Hex id record := by
  have hbooks := run_books h id
  obtain ⟨room, hroom⟩ : ∃ room, (run sha256Hex calls).rooms.get? id = some room := by
    cases hget : (run sha256Hex calls).rooms.get? id with
    | some room => exact ⟨room, rfl⟩
    | none =>
      rw [hbooks.absent hget] at hstored
      cases hstored
  obtain ⟨records', hrecords', -, haccepted⟩ := hbooks.listed room hroom
  rw [hstored] at hrecords'
  cases hrecords'
  obtain ⟨before, c, found, earlier, hlead, rfl, hadmits⟩ := haccepted record hr
  obtain ⟨now, recordId, owner, req, howner, rfl⟩ := record_of_answer hadmits.answer
  have hbefore : CleanRooms (run sha256Hex before) := run_cleanRooms fun d hd =>
    hclean d (hlead.subset (List.mem_append_left [c] hd))
  obtain ⟨hid, haccount⟩ := hbefore _ _ howner
  have hown : owner.id = found.id := hadmits.ownRoom
  exact ⟨hown ▸ hid, ⟨req.content, rfl⟩, owner.accountId, haccount, by rw [← hown]; rfl⟩

/-- No name of a file reaches into another room, and inside a room two uploads share a key only
with one name and one beginning of the hash. -/
theorem storage_keys_apart {calls : List Call}
    (h : ValidTrace Enabled (next sha256Hex) IntakeService.new calls)
    (hclean : ∀ c ∈ calls, CleanCall c) (hsha : ∀ content, (sha256Hex content).toList.length = 64)
    {i j : String} {xs ys : List UploadRecord}
    (hi : (run sha256Hex calls).uploads.get? i = some xs)
    (hj : (run sha256Hex calls).uploads.get? j = some ys) {x y : UploadRecord} (hx : x ∈ xs)
    (hy : y ∈ ys) (hkey : x.storageKey = y.storageKey) :
    i = j ∧ x.filename = y.filename ∧
      takeChars 16 x.contentHash = takeChars 16 y.contentHash := by
  obtain ⟨hri, ⟨content, hdx⟩, a, ha, hpx⟩ := stored_keyed h hclean hi hx
  obtain ⟨hrj, ⟨content', hdy⟩, b, hb, hpy⟩ := stored_keyed h hclean hj hy
  have hlx : 16 ≤ x.contentHash.toList.length := by rw [hdx, hsha]; decide
  have hly : 16 ≤ y.contentHash.toList.length := by rw [hdy, hsha]; decide
  rw [hpx, hpy] at hkey
  obtain ⟨-, hroom, hdigest, hname⟩ := storageKey_inj ha hb hri hrj hlx hly hkey
  exact ⟨hroom, hname, hdigest⟩

def repeatedFile : List Call :=
  [.createRoom 0 "room-1" "token-1" { accountId := "acc-1", contactEmail := "alice@acme.com" },
    .createRoom 0 "room-2" "token-2" { accountId := "acc-1", contactEmail := "alice@acme.com" },
    .upload 1 "up-1" "room-1" "token-1" sampleFile,
    .upload 2 "up-2" "room-1" "token-1" sampleFile,
    .upload 3 "up-3" "room-2" "token-2" sampleFile]

theorem repeated_file_key :
    ValidTrace Enabled (next sampleDigest) IntakeService.new repeatedFile ∧
      (∀ c ∈ repeatedFile, CleanCall c) ∧
      ∃ x y rest, (run sampleDigest repeatedFile).uploads.get? "room-1" = some (x :: y :: rest) ∧
        x.id ≠ y.id ∧ x.storageKey = y.storageKey ∧
        ("room-1" = "room-1" ∧ x.filename = y.filename ∧
          takeChars 16 x.contentHash = takeChars 16 y.contentHash) := by
  have hvalid : ValidTrace Enabled (next sampleDigest) IntakeService.new repeatedFile := by decide
  have hclean : ∀ c ∈ repeatedFile, CleanCall c := by decide
  have hsha : ∀ content, (sampleDigest content).toList.length = 64 := by
    intro content
    rw [sampleDigest, String.toList_ofList]
    rfl
  refine ⟨hvalid, hclean, _, _, _, rfl, by decide, rfl, ?_⟩
  exact storage_keys_apart hvalid hclean hsha rfl rfl List.mem_cons_self
    (List.mem_cons_of_mem _ List.mem_cons_self) rfl

end Runs

end TrustCopilot.StorageKeys
