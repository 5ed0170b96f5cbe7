import Embedai.EpisodeProcessor
import Embedai.StreamEndings
import Embedai.Uuid

namespace Embedai.StreamServer

open Gateway Handlers TransitionSystems

/-- PostgreSQL's input of a `uuid`, after the braces: a hyphen may stand after any four digits but the last. -/
def uuidGroups : ℕ → List Char → Option (List Char)
  | 0, rest => if rest = [] then some [] else none
  | n + 1, rest =>
    if (rest.take 4).length = 4 ∧ (rest.take 4).all (fun c => (Hexadecimal.hexValue c).isSome) then
      let tail := rest.drop 4
      (uuidGroups n (if 0 < n ∧ tail.head? = some '-' then tail.tail else tail)).map (rest.take 4 ++ ·)
    else none

def uuidIn (s : String) : Option Uuid :=
  let bare := match s.toList with
    | '{' :: rest => if rest.getLast? = some '}' then rest.dropLast else []
    | chars => chars
  (uuidGroups 8 bare).bind fun hex => (Hexadecimal.parse hex).map fun n => ⟨BitVec.ofNat 128 n⟩

/-- The columns of `episodes`: the foreign key, the widths of the texts and the range of a `bigint`. -/
structure Admits (projects : List Uuid) (ep : Episode) : Prop where
  project : ∃ project ∈ projects, uuidIn ep.projectId = some project
  filename : ep.filename.length ≤ 500 ∧ Char.ofNat 0 ∉ ep.filename.toList
  format : ep.format.length ≤ 10
  sizeBytes : -2 ^ 63 ≤ ep.sizeBytes ∧ ep.sizeBytes < 2 ^ 63

def createdEpisode (calls : SealCalls) (sessionId : String) (data : List UInt8) : Episode :=
  ⟨"", streamFilename sessionId calls.unixNano, "mcap", data.length, .processing, none,
    .obj [("recording_session_id", .str sessionId)]⟩

def sealing (s : StreamState) : StreamEvent → Option (SealCalls × FrameBuffer × String)
  | .recv _ => none
  | .inactivity calls => some (calls, s.buf, s.recordingSessionId)
  | .select calls _ => match s.recvDone with
    | none => none
    | some (.ok frame) =>
      if frame.isLast then
        some (calls, s.buf.add frame, if s.recordingSessionId = "" then frame.sessionId else s.recordingSessionId)
      else none
    | some (.error .other) => none
    | some (.error _) => some (calls, s.buf, s.recordingSessionId)

def SchemaDecides (marshal : StreamFrame → Option (List UInt8)) (sorted : SeqSort) (projects : List Uuid)
    (s : StreamState) (e : StreamEvent) : Prop :=
  ∀ calls buf sessionId data, sealing s e = some (calls, buf, sessionId) → buf.serialize marshal sorted = some data →
    (calls.fails .createEpisodeFromStream = false ↔ Admits projects (createdEpisode calls sessionId data)) ∧
      ∀ c, c ≠ .createEpisodeFromStream → calls.fails c = false

def Ingested (readers : Pipeline.Readers) (projectId : String) (g t : Stores) : Prop :=
  ∃ id ep event object episodeMeta, id ∉ g.episodes.keys ∧ t.episodes.get? id = some ep ∧ ep.projectId = projectId ∧
    event ∈ t.events ∧ event.episodeId = id ∧ t.objects event.storagePath = some object ∧
    readers.extract event.format object = .ok episodeMeta

section Schema

variable {marshal : StreamFrame → Option (List UInt8)} {sorted : SeqSort} {projects : List Uuid} {s t : StreamState}
  {g : Stores}

theorem not_admits_createdEpisode (projects : List Uuid) (calls : SealCalls) (sessionId : String)
    (data : List UInt8) : ¬ Admits projects (createdEpisode calls sessionId data) := by
  intro hadmits
  obtain ⟨project, -, hproject⟩ := hadmits.project
  have hempty : uuidIn "" = none := by decide
  rw [createdEpisode, hempty] at hproject
  cases hproject

theorem sealEpisode_refused {calls : SealCalls} (h : calls.fails .createEpisodeFromStream = true) (buf : FrameBuffer)
    (sessionId : String) : (sealEpisode marshal sorted calls buf sessionId g).2.2 = g := by
  unfold sealEpisode
  cases buf.serialize marshal sorted with
  | none => rfl
  | some data =>
    have hrefused : answer (storeEpisode calls sessionId data) g = (.error .createEpisode, g) := by
      simp only [storeEpisode, answer_bind, answer_attempt, h, if_true]
    simp only [hrefused]

theorem stores_step {e : StreamEvent} (hstep : step marshal sorted s e = some t) :
    t.stores = s.stores ∨ ∃ calls buf sessionId, sealing s e = some (calls, buf, sessionId) ∧
      t.stores = (sealEpisode marshal sorted calls buf sessionId s.stores).2.2 := by
  have hreturned := returned_of_step hstep
  unfold step at hstep
  rw [hreturned, Option.isSome_none, if_neg Bool.false_ne_true] at hstep
  cases e with
  | recv result =>
    simp only [Option.ite_none_right_eq_some, Option.some.injEq] at hstep
    obtain ⟨-, rfl⟩ := hstep
    exact Or.inl rfl
  | inactivity calls =>
    cases hstep
    unfold onInactivity
    split
    · exact Or.inr ⟨_, _, _, rfl, rfl⟩
    · exact Or.inl rfl
  | select calls sendFails =>
    have hclosed : (onClosed marshal sorted calls s).stores = s.stores ∨
        (onClosed marshal sorted calls s).stores =
          (sealEpisode marshal sorted calls s.buf s.recordingSessionId s.stores).2.2 := by
      unfold onClosed
      split
      · exact Or.inr rfl
      · exact Or.inl rfl
    unfold sealing
    cases hdone : s.recvDone with
    | none =>
      rw [hdone] at hstep
      cases hstep
    | some result =>
      rw [hdone] at hstep
      rcases result with ⟨_ | _ | _⟩ | frame
      · cases hstep
        exact hclosed.imp_right fun h => ⟨_, _, _, rfl, h⟩
      · cases hstep
        exact hclosed.imp_right fun h => ⟨_, _, _, rfl, h⟩
      · cases hstep
        exact Or.inl rfl
      · cases hstep
        cases hlast : frame.isLast with
        | true =>
          rw [onFrame, if_pos hlast]
          exact Or.inr ⟨_, _, _, if_pos hlast, rfl⟩
        | false =>
          rw [onFrame, if_neg (by simp [hlast])]
          cases sendFails <;> exact Or.inl rfl

theorem stores_step_of_schema {e : StreamEvent} (hdecides : SchemaDecides marshal sorted projects s e)
    (hstep : step marshal sorted s e = some t) : t.stores = s.stores := by
  rcases stores_step hstep with hsame | ⟨calls, buf, sessionId, hsealing, hstores⟩
  · exact hsame
  · cases hdata : buf.serialize marshal sorted with
    | none =>
      rw [hstores, sealEpisode, hdata]
    | some data =>
      have hiff := (hdecides calls buf sessionId data hsealing hdata).1
      have hfails : calls.fails .createEpisodeFromStream = true := by
        by_contra hnot
        exact not_admits_createdEpisode projects calls sessionId data (hiff.mp (Bool.eq_false_iff.mpr hnot))
      rw [hstores, sealEpisode_refused hfails]

theorem stores_run_of_schema {events : List StreamEvent}
    (hschema : Along (step marshal sorted) (SchemaDecides marshal sorted projects) (openStream g) events)
    (hrun : run (step marshal sorted) (openStream g) events = some t) : t.stores = g :=
  invariant_along (fun s => s.stores = g)
    (fun _ _ _ hs hdecides hstep => (stores_step_of_schema hdecides hstep).trans hs) rfl hschema hrun

theorem not_ingested_self (readers : Pipeline.Readers) (projectId : String) (g : Stores) :
    ¬ Ingested readers projectId g g := by
  rintro ⟨id, ep, -, -, -, hfresh, hep, -⟩
  exact hfresh (OrderedDict.mem_keys.mpr ⟨ep, hep⟩)

end Schema

theorem streams_never_ingested (marshal : StreamFrame → Option (List UInt8)) (sorted : SeqSort)
    (projects : List Uuid) (readers : Pipeline.Readers) (projectId : String) (g : Stores)
    (events : List StreamEvent) (t : StreamState)
    (hschema : Along (step marshal sorted) (SchemaDecides marshal sorted projects) (openStream g) events)
    (hrun : run (step marshal sorted) (openStream g) events = some t) :
    ¬ Ingested readers projectId g t.stores := by
  rw [stores_run_of_schema hschema hrun]
  exact not_ingested_self readers projectId g

def projectFrame : StreamFrame :=
  ⟨"s-1", "00000000-0000-0000-0000-000000000001", "r-1", 1, 7, "/camera/rgb", [1, 2, 3], true⟩

def refusingSchema : SealCalls := ⟨fun c => c = .createEpisodeFromStream, "e", 0⟩

def projectStream : List StreamEvent := [.recv (.ok projectFrame), .select refusingSchema false]

theorem schemaDecides_refusingSchema (marshal : StreamFrame → Option (List UInt8)) (sorted : SeqSort)
    (projects : List Uuid) (s : StreamState) (sendFails : Bool) :
    SchemaDecides marshal sorted projects s (.select refusingSchema sendFails) := by
  intro calls buf sessionId data hsealing _
  have hcalls : calls = refusingSchema := by
    simp only [sealing] at hsealing
    split at hsealing
    · cases hsealing
    · split at hsealing
      · cases hsealing
        rfl
      · cases hsealing
    · cases hsealing
    · cases hsealing
      rfl
  subst hcalls
  refine ⟨⟨nofun, fun hadmits => ?_⟩, fun c hc => decide_eq_false hc⟩
  exact absurd hadmits (not_admits_createdEpisode projects _ sessionId data)

theorem schemaDecides_projectStream :
    Along (step protoMarshal mergeSeqSort) (SchemaDecides protoMarshal mergeSeqSort [⟨1⟩]) (openStream emptyStores)
      projectStream := by
  refine ⟨?_, fun s _ => ?_⟩
  · intro calls buf sessionId data hsealing
    cases hsealing
  · exact ⟨schemaDecides_refusingSchema _ _ _ s false, fun _ _ => trivial⟩

theorem streams_never_ingested_projectStream :
    (run (step protoMarshal mergeSeqSort) (openStream emptyStores) projectStream).isSome ∧
      ∀ readers t, run (step protoMarshal mergeSeqSort) (openStream emptyStores) projectStream = some t →
        ¬ Ingested readers projectFrame.projectId emptyStores t.stores :=
  ⟨rfl, fun readers t ht => streams_never_ingested protoMarshal mergeSeqSort [⟨1⟩] readers projectFrame.projectId
    emptyStores projectStream t schemaDecides_projectStream ht⟩

theorem projectStream_refused :
    uuidIn projectFrame.projectId = some ⟨1⟩ ∧
      Along (step protoMarshal mergeSeqSort) (SchemaDecides protoMarshal mergeSeqSort [⟨1⟩]) (openStream emptyStores)
        projectStream ∧
      ∃ t, run (step protoMarshal mergeSeqSort) (openStream emptyStores) projectStream = some t ∧
        receivedFrames projectStream = [projectFrame] ∧ t.pending = [] ∧ t.returned = some (.ok ()) ∧
        ∀ readers, ¬ Ingested readers projectFrame.projectId emptyStores t.stores := by
  obtain ⟨t, ht, hpending, hreturned⟩ : ∃ t, run (step protoMarshal mergeSeqSort) (openStream emptyStores)
      projectStream = some t ∧ t.pending = [] ∧ t.returned = some (.ok ()) := ⟨_, rfl, rfl, rfl⟩
  refine ⟨by decide +kernel, schemaDecides_projectStream, t, ht, rfl, hpending, hreturned, fun readers => ?_⟩
  rw [stores_run_of_schema schemaDecides_projectStream ht]
  exact not_ingested_self readers _ _

section Format

def mcapMagic : List UInt8 := [0x89, 0x4d, 0x43, 0x41, 0x50, 0x30, 0x0d, 0x0a]

def fieldTags : List UInt8 := [0x0a, 0x12, 0x1a, 0x20, 0x28, 0x32, 0x3a, 0x40]

variable {a b : List UInt8} {x : UInt8}

theorem head?_append (ha : ∀ x, a.head? = some x → x ∈ fieldTags) (hb : ∀ x, b.head? = some x → x ∈ fieldTags) :
    ∀ x, (a ++ b).head? = some x → x ∈ fieldTags := by
  intro x hx
  cases a with
  | nil => exact hb x hx
  | cons y a => exact ha x hx

theorem head?_tagged {number wire : ℕ} (tail : List UInt8) (hvarint : varint 10 (8 * number + wire) = [x])
    (htag : x ∈ fieldTags) : ∀ y, (varint 10 (8 * number + wire) ++ tail).head? = some y → y ∈ fieldTags := by
  intro y hy
  rw [hvarint] at hy
  cases hy
  exact htag

theorem head?_bytesField {number : ℕ} (data : List UInt8) (hvarint : varint 10 (8 * number + 2) = [x])
    (htag : x ∈ fieldTags) : ∀ y, (bytesField number data).head? = some y → y ∈ fieldTags := by
  unfold bytesField
  split
  · exact fun y hy => by cases hy
  · rw [List.append_assoc]
    exact head?_tagged _ hvarint htag

theorem head?_varintField {number : ℕ} (n : ℕ) (hvarint : varint 10 (8 * number + 0) = [x]) (htag : x ∈ fieldTags) :
    ∀ y, (varintField number n).head? = some y → y ∈ fieldTags := by
  unfold varintField
  split
  · exact fun y hy => by cases hy
  · exact head?_tagged _ hvarint htag

theorem head?_protoMarshal {f : StreamFrame} {data : List UInt8} (h : protoMarshal f = some data) :
    ∀ x, data.head? = some x → x ∈ fieldTags := by
  cases h
  refine head?_append (head?_append (head?_append (head?_append (head?_append (head?_append (head?_append ?_ ?_) ?_) ?_)
    ?_) ?_) ?_) ?_
  · exact head?_bytesField _ rfl (by decide)
  · exact head?_bytesField _ rfl (by decide)
  · exact head?_bytesField _ rfl (by decide)
  · exact head?_varintField _ rfl (by decide)
  · exact head?_varintField _ rfl (by decide)
  · exact head?_bytesField _ rfl (by decide)
  · exact head?_bytesField _ rfl (by decide)
  · exact head?_varintField _ rfl (by decide)

theorem sealed_object_not_mcap {frames : List StreamFrame} {object : List UInt8}
    (h : encode protoMarshal frames = some object) : ¬ mcapMagic <+: object := by
  intro hmagic
  cases frames with
  | nil =>
    cases h
    exact absurd hmagic (by decide)
  | cons f frames =>
    unfold encode at h
    rw [List.mapM_cons] at h
    obtain ⟨parts, hparts, rfl⟩ := Option.map_eq_some_iff.mp h
    obtain ⟨part, hpart, hparts⟩ := Option.bind_eq_some_iff.mp hparts
    obtain ⟨rest, -, hparts⟩ := Option.bind_eq_some_iff.mp hparts
    cases hparts
    obtain ⟨data, hdata, rfl⟩ := Option.map_eq_some_iff.mp hpart
    obtain ⟨tail, htail⟩ := hmagic
    rw [List.flatten_cons, lengthPrefix] at htail
    cases data with
    | nil =>
      have hfirst : some (0x89 : UInt8) = some (UInt8.ofNat 0) := congrArg List.head? htail
      exact absurd hfirst (by decide)
    | cons x data =>
      have hfifth := congrArg (fun l => l[4]?) htail
      have hx : (0x50 : UInt8) = x := by simpa [mcapMagic] using hfifth
      exact absurd (head?_protoMarshal hdata x rfl) (by rw [← hx]; decide)

end Format

end Embedai.StreamServer
