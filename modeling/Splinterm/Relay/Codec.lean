import Splinterm.Relay.Frame

/-!
# The frame codec is exact

The writer and the reader make their checks in different places. They coincide: what
the writer takes apart, the reader puts together again (`check_of_parts`), and what the
reader accepts is what the writer would have written (`parts_of_check`). The rest is
about streams: `readFrame` sees the bytes and not the pieces they come in.
-/

namespace Splinterm.Relay

open Lib Hoare Wire Json List Option Nat Except Header

/-! ## Valid frames -/

def ValidDiagnostic (value : String) : Prop :=
  value ≠ "" ∧ value.utf8ByteSize ≤ maxDiagnosticBytes ∧ value.toList.any isControl = false

/-- A frame within the bounds of the protocol. -/
def Frame.Valid : Frame → Prop
  | .hello | .helloAck => True
  | .openChannel channelId | .channelOpened channelId | .halfClose channelId
  | .closeChannel channelId => channelId ≠ 0
  | .channelRejected channelId reason => channelId ≠ 0 ∧ ValidDiagnostic reason
  | .data channelId bytes => channelId ≠ 0 ∧ bytes ≠ [] ∧ bytes.length ≤ maxDataBytes
  | .sessionError reason => ValidDiagnostic reason

variable {value : String}

theorem validateDiagnostic_eq_ok : validateDiagnostic value = .ok () ↔ ValidDiagnostic value := by
  rw [validateDiagnostic, rejectIf_eq_ok, not_or, not_or, not_lt, Bool.not_eq_true]
  exact Iff.rfl

variable {bytes : List UInt8}

theorem validateData_eq_ok : validateData bytes = .ok () ↔ bytes ≠ [] ∧ bytes.length ≤ maxDataBytes := by
  rw [validateData, rejectIf_eq_ok, not_or, not_lt]

variable {kind : UInt8} {channelId : UInt32}

theorem validateChannel_eq_ok :
    validateChannel kind channelId = .ok () ↔ (sessionFrame kind = true ↔ channelId = 0) := by
  rw [validateChannel]
  by_cases h : channelId = 0 <;> simp [h]

/-- What `parts` returns for a valid frame. -/
def Frame.split : Frame → UInt8 × UInt32 × List UInt8
  | .hello => (kindHello, 0, [])
  | .helloAck => (kindHelloAck, 0, [])
  | .openChannel channelId => (kindOpenChannel, channelId, [])
  | .channelOpened channelId => (kindChannelOpened, channelId, [])
  | .channelRejected channelId reason => (kindChannelRejected, channelId, utf8 reason)
  | .data channelId bytes => (kindData, channelId, bytes)
  | .halfClose channelId => (kindHalfClose, channelId, [])
  | .closeChannel channelId => (kindCloseChannel, channelId, [])
  | .sessionError reason => (kindSessionError, 0, utf8 reason)

theorem validateChannel_of_channel (hkind : sessionFrame kind = false)
    (channelId : UInt32) : validateChannel kind channelId = .ok () ↔ channelId ≠ 0 := by
  rw [validateChannel_eq_ok, hkind]
  constructor
  · intro h hz
    exact Bool.noConfusion (h.mpr hz)
  · intro h
    exact ⟨fun hf => Bool.noConfusion hf, fun hz => absurd hz h⟩

variable {payload : List UInt8} {x : UInt8 × UInt32 × List UInt8}

/-- A check before the rest of a function that otherwise succeeds or not as the rest does. -/
theorem after_eq_ok {α : Type} {check : Except String Unit} {rest : Except String α} {x : α} :
    (check >>= fun _ => rest) = .ok x ↔ check = .ok () ∧ rest = .ok x := by
  rw [bind_eq_ok]
  exact ⟨fun ⟨_, hu, hx⟩ => ⟨hu, hx⟩, fun h => ⟨(), h.1, h.2⟩⟩

theorem channel_parts (hkind : sessionFrame kind = false) :
    (validateChannel kind channelId >>= fun _ => ok (kind, channelId, payload)) = .ok x ↔
      channelId ≠ 0 ∧ x = (kind, channelId, payload) := by
  rw [after_eq_ok, validateChannel_of_channel hkind, ok.injEq, eq_comm (a := x)]

theorem session_parts (hkind : sessionFrame kind = true) :
    (validateChannel kind 0 >>= fun _ => ok (kind, 0, payload)) = .ok x ↔ x = (kind, 0, payload) := by
  rw [after_eq_ok, validateChannel_eq_ok, hkind, ok.injEq, eq_comm (a := x)]
  exact and_iff_right ⟨fun _ => rfl, fun _ => rfl⟩

variable {frame : Frame}

theorem Frame.parts_eq_ok : frame.parts = .ok x ↔ frame.Valid ∧ x = frame.split := by
  cases frame with
  | hello => exact (@session_parts kindHello _ _ rfl).trans (and_iff_right trivial).symm
  | helloAck => exact (@session_parts kindHelloAck _ _ rfl).trans (and_iff_right trivial).symm
  | openChannel | channelOpened | halfClose | closeChannel => exact channel_parts rfl
  | channelRejected channelId reason =>
    have hparts : (Frame.channelRejected channelId reason).parts = (validateDiagnostic reason >>= fun _ =>
          validateChannel kindChannelRejected channelId >>= fun _ =>
          ok (kindChannelRejected, channelId, utf8 reason)) := rfl
    rw [hparts, after_eq_ok, validateDiagnostic_eq_ok, channel_parts rfl, ← and_assoc,
      and_comm (a := ValidDiagnostic reason)]
    exact Iff.rfl
  | data channelId bytes =>
    have hparts : (Frame.data channelId bytes).parts =
        (validateData bytes >>= fun _ => validateChannel kindData channelId >>= fun _ =>
          ok (kindData, channelId, bytes)) := rfl
    rw [hparts, after_eq_ok, validateData_eq_ok, channel_parts rfl, ← and_assoc, and_comm (b := channelId ≠ 0)]
    exact Iff.rfl
  | sessionError reason =>
    have hparts : (Frame.sessionError reason).parts =
        (validateDiagnostic reason >>= fun _ => validateChannel kindSessionError 0 >>= fun _ =>
          ok (kindSessionError, 0, utf8 reason)) := rfl
    rw [hparts, after_eq_ok, validateDiagnostic_eq_ok, session_parts rfl]
    exact Iff.rfl

/-! ## The header -/

theorem length_header (kind : UInt8) (channelId payloadLen : UInt32) :
    (header kind channelId payloadLen).length = headerBytes := rfl

theorem parse_header (kind : UInt8) (channelId payloadLen : UInt32) :
    parse (header kind channelId payloadLen) = ⟨magic, version, kind, 0, channelId, payloadLen⟩ := by
  have hversion : ofBe16 0 1 = version := by decide
  have hbytes : header kind channelId payloadLen =
      magic ++ [0, 1] ++ [kind, 0] ++ be32 channelId ++ be32 payloadLen := rfl
  rw [hbytes, be32, be32]
  simpa [parse, magic, hversion] using
    And.intro (ofBe32_be32 channelId) (ofBe32_be32 payloadLen)

set_option maxRecDepth 2048 in
/-- Sixteen bytes are the header of their own fields. -/
theorem header_parse (hlength : bytes.length = headerBytes) (hmagic : (parse bytes).magic = magic)
    (hversion : (parse bytes).version = version) (hflags : (parse bytes).flags = 0) :
    bytes = header (parse bytes).kind (parse bytes).channelId (parse bytes).payloadLen := by
  match bytes, hlength with
  | [m0, m1, m2, m3, v0, v1, kind, flags, c0, c1, c2, c3, l0, l1, l2, l3], _ =>
    obtain rfl : flags = 0 := hflags
    rw [header, ← hmagic, ← hversion]
    show _ = [m0, m1, m2, m3] ++ be16 (ofBe16 v0 v1) ++ [kind, 0] ++ be32 (ofBe32 c0 c1 c2 c3) ++
      be32 (ofBe32 l0 l1 l2 l3)
    rw [be16_ofBe16, be32_ofBe32, be32_ofBe32]
    rfl

/-! ## The two sets of checks coincide -/

def sessionKinds : List UInt8 := [kindHello, kindHelloAck, kindSessionError]

def channelKinds : List UInt8 :=
  [kindOpenChannel, kindChannelOpened, kindChannelRejected, kindData, kindHalfClose, kindCloseChannel]

def diagnosticKinds : List UInt8 := [kindChannelRejected, kindSessionError]

theorem known_of_maximum {most : Nat} (h : maximum kind = some most) : kind ∈ sessionKinds ++ channelKinds := by
  unfold maximum at h
  split at h
  case isTrue hk => exact hk ▸ by decide
  split at h
  case isTrue hk => obtain rfl | rfl := hk <;> decide
  split at h
  case isTrue hk => obtain rfl | rfl | rfl | rfl | rfl | rfl := hk <;> decide
  cases h

theorem Header.check_eq_ok {h : Header} {n : Nat} : h.check = .ok n ↔
      h.magic = Relay.magic ∧ h.version = Relay.version ∧ h.flags = 0 ∧
      validateChannel h.kind h.channelId = .ok () ∧ n = h.payloadLen.toNat ∧
      ∃ most, maximum h.kind = some most ∧ n ≤ most ∧ ¬ (h.kind = kindData ∧ n = 0) := by
  unfold check
  rw [after_eq_ok, after_eq_ok, after_eq_ok, after_eq_ok, rejectIf_eq_ok, rejectIf_eq_ok,
    rejectIf_eq_ok, not_not, not_not, not_not]
  refine and_congr_right fun _ => and_congr_right fun _ => and_congr_right fun _ => and_congr_right fun _ => ?_
  cases hmax : maximum h.kind with
  | none =>
    constructor
    · intro herr
      cases herr
    · rintro ⟨-, most, hmost, -⟩
      cases hmost
  | some most =>
    rw [after_eq_ok, rejectIf_eq_ok, not_or, not_lt, ok.injEq]
    constructor
    · intro hok
      obtain ⟨⟨hle, hdata⟩, rfl⟩ := hok
      exact ⟨rfl, most, rfl, hle, hdata⟩
    · intro hok
      obtain ⟨rfl, m, hm, hle, hdata⟩ := hok
      cases hm
      exact ⟨⟨hle, hdata⟩, rfl⟩

theorem fromUTF8?_utf8 (value : String) : String.fromUTF8? ⟨(utf8 value).toArray⟩ = some value := by
  have hbytes : (⟨(utf8 value).toArray⟩ : ByteArray) = value.toByteArray := rfl
  rw [hbytes, String.fromUTF8?, dif_pos value.isValidUTF8]
  rfl

theorem utf8_of_fromUTF8? (h : String.fromUTF8? ⟨bytes.toArray⟩ = some value) : utf8 value = bytes := by
  unfold String.fromUTF8? at h
  split at h
  · cases h
    rfl
  · cases h

theorem diagnostic_eq_ok : diagnostic payload = .ok value ↔ ValidDiagnostic value ∧ payload = utf8 value := by
  constructor
  · intro h
    unfold diagnostic at h
    cases hutf : String.fromUTF8? ⟨payload.toArray⟩ with
    | none =>
      rw [hutf] at h
      cases h
    | some found =>
      rw [hutf] at h
      dsimp only at h
      cases hvalid : validateDiagnostic found with
      | error e =>
        rw [hvalid] at h
        cases h
      | ok u =>
        rw [hvalid] at h
        cases h
        exact ⟨validateDiagnostic_eq_ok.mp hvalid, (utf8_of_fromUTF8? hutf).symm⟩
  · intro h
    rw [h.2, diagnostic, fromUTF8?_utf8]
    dsimp only
    rw [validateDiagnostic_eq_ok.mpr h.1]

/-- The bounds the reader puts on a kind and its payload. -/
def Within (kind : UInt8) (channelId : UInt32) (payload : List UInt8) : Prop :=
  validateChannel kind channelId = .ok () ∧ ∃ most, maximum kind = some most ∧ payload.length ≤ most ∧
      ¬ (kind = kindData ∧ payload.length = 0)

theorem within_channel (hkind : sessionFrame kind = false) (hne : kind ≠ kindData)
    {most : Nat} (hmost : maximum kind = some most) (hchannel : channelId ≠ 0)
    (hle : payload.length ≤ most) : Within kind channelId payload :=
  ⟨(validateChannel_of_channel hkind _).mpr hchannel, most, hmost, hle, fun h => hne h.1⟩

namespace Frame.Valid

variable (h : frame.Valid)

include h

theorem length_split : frame.split.2.2.length ≤ maxDataBytes := by
  cases frame with
  | data channelId bytes => exact h.2.2
  | channelRejected channelId reason => exact le_trans h.2.2.1 (by decide)
  | sessionError reason => exact le_trans h.2.1 (by decide)
  | _ => exact zero_le _

theorem within : Within frame.split.1 frame.split.2.1 frame.split.2.2 := by
  cases frame with
  | hello | helloAck => exact ⟨rfl, 0, rfl, le_refl 0, by decide⟩
  | openChannel => exact @within_channel kindOpenChannel _ [] rfl (by decide) 0 rfl h (le_refl 0)
  | channelOpened => exact @within_channel kindChannelOpened _ [] rfl (by decide) 0 rfl h (le_refl 0)
  | halfClose => exact @within_channel kindHalfClose _ [] rfl (by decide) 0 rfl h (le_refl 0)
  | closeChannel => exact @within_channel kindCloseChannel _ [] rfl (by decide) 0 rfl h (le_refl 0)
  | channelRejected channelId reason =>
    exact @within_channel kindChannelRejected _ _ rfl (by decide) _ rfl h.1 h.2.2.1
  | data channelId bytes =>
    exact ⟨(validateChannel_of_channel rfl _).mpr h.1, maxDataBytes, rfl, h.2.2,
      fun hdata => h.2.1 (eq_nil_of_length_eq_zero hdata.2)⟩
  | sessionError reason =>
    have hne : kindSessionError ≠ kindData := by decide
    exact ⟨rfl, maxDiagnosticBytes, rfl, h.2.1, fun hdata => hne hdata.1⟩

theorem toNat_length :
    (UInt32.ofNat frame.split.2.2.length).toNat = frame.split.2.2.length :=
  UInt32.toNat_ofNat_of_lt' (lt_of_le_of_lt h.length_split (by decide))

/-- The reader lets the header of a valid frame pass. -/
theorem check : (mk magic version frame.split.1 0 frame.split.2.1
      (.ofNat frame.split.2.2.length)).check = .ok frame.split.2.2.length := by
  obtain ⟨hchannel, hmost⟩ := h.within
  exact check_eq_ok.mpr ⟨rfl, rfl, rfl, hchannel, h.toNat_length.symm, hmost⟩

theorem frameOf : frameOf frame.split.1 frame.split.2.1 frame.split.2.2 = .ok frame := by
  cases frame with
  | channelRejected channelId reason =>
    show (diagnostic (utf8 reason)).map _ = _
    rw [diagnostic_eq_ok.mpr ⟨h.2, rfl⟩]
    rfl
  | sessionError reason =>
    show (diagnostic (utf8 reason)).map _ = _
    rw [diagnostic_eq_ok.mpr ⟨h, rfl⟩]
    rfl
  | _ => rfl

end Frame.Valid

theorem map_eq_ok {α β : Type} {r : Except ReadError α} {f : α → β} {b : β}
    (h : r.map f = .ok b) : ∃ a, r = .ok a ∧ b = f a := by
  cases r with
  | error e => cases h
  | ok a =>
    cases h
    exact ⟨a, rfl, rfl⟩

/-- What the reader makes of an accepted header and its payload is a valid frame, and the writer
takes it apart the same way. -/
theorem Frame.of_check {h : Header} (hcheck : h.check = .ok payload.length)
    (hframe : Relay.frameOf h.kind h.channelId payload = .ok frame) :
    frame.Valid ∧ frame.split = (h.kind, h.channelId, payload) := by
  obtain ⟨-, -, -, hchannel, -, most, hmost, hle, hdata⟩ := check_eq_ok.mp hcheck
  obtain ⟨_, _, kind, _, channelId, _⟩ := h
  have hknown := known_of_maximum hmost
  have hempty (hzero : maximum kind = some 0) : payload = [] := by
    rw [hzero, some_inj] at hmost
    exact eq_nil_of_length_eq_zero (le_zero.mp (hmost ▸ hle))
  have hnonzero (hkind : sessionFrame kind = false) : channelId ≠ 0 :=
    (validateChannel_of_channel hkind _).mp hchannel
  have hsession (hkind : sessionFrame kind = true) : channelId = 0 := (validateChannel_eq_ok.mp hchannel).mp hkind
  rw [sessionKinds, channelKinds] at hknown
  simp only [cons_append, nil_append, mem_cons, not_mem_nil, or_false] at hknown
  obtain rfl | rfl | rfl | rfl | rfl | rfl | rfl | rfl | rfl := hknown
  · cases hframe
    exact ⟨trivial, by rw [hempty rfl, hsession rfl]; rfl⟩
  · cases hframe
    exact ⟨trivial, by rw [hempty rfl, hsession rfl]; rfl⟩
  · obtain ⟨reason, hreason, rfl⟩ := map_eq_ok hframe
    obtain ⟨hvalid, rfl⟩ := diagnostic_eq_ok.mp hreason
    exact ⟨hvalid, by rw [hsession rfl]; rfl⟩
  · cases hframe
    exact ⟨hnonzero rfl, by rw [hempty rfl]; rfl⟩
  · cases hframe
    exact ⟨hnonzero rfl, by rw [hempty rfl]; rfl⟩
  · obtain ⟨reason, hreason, rfl⟩ := map_eq_ok hframe
    obtain ⟨hvalid, rfl⟩ := diagnostic_eq_ok.mp hreason
    exact ⟨⟨hnonzero rfl, hvalid⟩, rfl⟩
  · cases hframe
    refine ⟨⟨hnonzero rfl, fun hnil => hdata ⟨rfl, by rw [hnil]; rfl⟩, ?_⟩, rfl⟩
    exact some.inj hmost ▸ hle
  · cases hframe
    exact ⟨hnonzero rfl, by rw [hempty rfl]; rfl⟩
  · cases hframe
    exact ⟨hnonzero rfl, by rw [hempty rfl]; rfl⟩

/-! ## What is written -/

/-- The bytes of a valid frame. -/
def Frame.encode (frame : Frame) : List UInt8 :=
  header frame.split.1 frame.split.2.1 (.ofNat frame.split.2.2.length) ++ frame.split.2.2

theorem writeFrame_of_valid (h : frame.Valid) (out : List UInt8) :
    writeFrame frame out = (.ok (), out ++ frame.encode) := by
  have hlength : frame.split.2.2.length < UInt32.size := lt_of_le_of_lt h.length_split (by decide)
  unfold writeFrame
  rw [Frame.parts_eq_ok.mpr ⟨h, rfl⟩]
  show writeParts frame.split.1 frame.split.2.1 frame.split.2.2 out = _
  rw [writeParts, if_pos hlength, append_assoc]
  rfl

theorem writeFrame_eq_ok {out out' : List UInt8}
    (hwrite : writeFrame frame out = (.ok (), out')) : frame.Valid ∧ out' = out ++ frame.encode := by
  cases hparts : frame.parts with
  | error e =>
    unfold writeFrame at hwrite
    rw [hparts] at hwrite
    cases hwrite
  | ok x =>
    have hvalid := (Frame.parts_eq_ok.mp hparts).1
    rw [writeFrame_of_valid hvalid] at hwrite
    exact ⟨hvalid, (congrArg Prod.snd hwrite).symm⟩

theorem writeDataFrame_eq (channelId : UInt32) (payload out : List UInt8) :
    writeDataFrame channelId payload out = writeFrame (.data channelId payload) out := by
  have hparts : (Frame.data channelId payload).parts =
      (validateData payload >>= fun _ => validateChannel kindData channelId >>= fun _ =>
        ok (kindData, channelId, payload)) := rfl
  unfold writeDataFrame writeFrame
  rw [hparts]
  cases validateData payload <;> cases validateChannel kindData channelId <;> rfl

theorem writeFrames_of_valid {frames : List Frame} (h : ∀ frame ∈ frames, frame.Valid)
    (out : List UInt8) : writeFrames frames out = (.ok (), out ++ frames.flatMap Frame.encode) := by
  induction frames generalizing out with
  | nil => rw [flatMap_nil, append_nil, writeFrames]
  | cons frame frames ih =>
    have hrest := ih (fun f hf => h f (mem_cons_of_mem _ hf)) (out ++ frame.encode)
    rw [writeFrames, writeFrame_of_valid (h frame mem_cons_self)]
    dsimp only
    rw [hrest, flatMap_cons, append_assoc]

/-! ## What one call reads -/

theorem maximum_le {most : Nat} (h : maximum kind = some most) : most ≤ maxDataBytes := by
  have hall : ∀ kind ∈ sessionKinds ++ channelKinds, (maximum kind).all (· ≤ maxDataBytes) = true := by decide +kernel
  have hle := hall kind (known_of_maximum h)
  rw [h] at hle
  exact of_decide_eq_true hle

theorem Header.check_le {h : Header} {n : Nat} (hcheck : h.check = .ok n) : n ≤ maxDataBytes := by
  obtain ⟨-, -, -, -, -, most, hmost, hle, -⟩ := check_eq_ok.mp hcheck
  exact le_trans hle (maximum_le hmost)

/-- One call finds the end of the stream, fails because bytes are missing or the header is refused,
or takes a header and its payload. -/
theorem readFrame_cases (r : Source UInt8 IoError) : r.contents = [] ∧ readFrame r = ⟨.ok none, r, 0⟩ ∨
    (∃ e r' n, readFrame r = ⟨.error e, r', n⟩ ∧ n ≤ maxDataBytes ∧ (r.contents.length < headerBytes ∨
      ∃ head tail, head.length = headerBytes ∧ r.contents = head ++ tail ∧
        ∀ m, (parse head).check = .ok m → tail.length < m)) ∨
    ∃ head payload r', head.length = headerBytes ∧ (parse head).check = .ok payload.length ∧
      r.contents = head ++ (payload ++ r'.contents) ∧ r'.failure = r.failure ∧
      readFrame r = ⟨(frameOf (parse head).kind (parse head).channelId payload).map some, r',
        payload.length + if (parse head).kind = kindChannelRejected ∨
          (parse head).kind = kindSessionError then payload.length else 0⟩ := by
  by_cases hnil : r.contents = []
  · obtain ⟨hend, hfail⟩ := Source.read_of_contents_nil 1 hnil
    cases hfailure : r.failure with
    | none => exact .inl ⟨hnil, by rw [readFrame, hend hfailure]⟩
    | some e =>
      have hshort : r.contents.length < headerBytes := by simp [hnil, headerBytes]
      exact .inr (.inl ⟨.io e, r, 0, by rw [readFrame, hfail e hfailure], zero_le _, .inl hshort⟩)
  · right
    obtain ⟨b, bs, r₁, hread, hlt, hcontents, hfailure⟩ := Source.read_of_contents_ne_nil zero_lt_one hnil
    obtain rfl : bs = [] := eq_nil_of_length_eq_zero (by omega)
    have hlength : r.contents.length = r₁.contents.length + 1 := by
      rw [hcontents]
      rfl
    by_cases hshort : r₁.contents.length < headerBytes - 1
    · obtain ⟨r₂, hexact⟩ := Source.readExact_of_lt hshort
      exact .inl ⟨_, r₂, 0, by rw [readFrame, hread]; dsimp only; rw [hexact], zero_le _, .inl (by omega)⟩
    · obtain ⟨r₂, hexact, hrest, hfailure₂⟩ :=
        Source.readExact_of_append (take_append_drop (headerBytes - 1) r₁.contents).symm
      have hfifteen : (r₁.contents.take (headerBytes - 1)).length = headerBytes - 1 :=
        length_take_of_le (Nat.le_of_not_lt hshort)
      rw [hfifteen] at hexact
      have hread : readFrame r = readPayload (parse (b :: r₁.contents.take (headerBytes - 1))) r₂ := by
        rw [readFrame, hread]
        dsimp only
        rw [hexact]
        rfl
      have hhead : (b :: r₁.contents.take (headerBytes - 1)).length = headerBytes := by
        rw [length_cons, hfifteen]
        rfl
      have hsplit : r.contents = b :: r₁.contents.take (headerBytes - 1) ++ r₂.contents := by
        rw [hcontents, hrest, cons_append, cons_append, nil_append, take_append_drop]
      generalize b :: r₁.contents.take (headerBytes - 1) = head at *
      rw [hread, readPayload]
      cases hcheck : (parse head).check with
      | error e => exact .inl ⟨_, r₂, 0, rfl, zero_le _, .inr ⟨head, _, hhead, hsplit, by simp [hcheck]⟩⟩
      | ok n =>
        by_cases hlt : r₂.contents.length < n
        · obtain ⟨r₃, hpayload⟩ := Source.readExact_of_lt hlt
          refine .inl ⟨_, r₃, n, by dsimp only; rw [hpayload], check_le hcheck, .inr ⟨head, _, hhead, hsplit, ?_⟩⟩
          rw [hcheck]
          rintro _ ⟨⟩
          exact hlt
        · obtain ⟨r₃, hpayload, hrest₃, hfailure₃⟩ := Source.readExact_of_append (take_append_drop n r₂.contents).symm
          have htaken : (r₂.contents.take n).length = n := length_take_of_le (Nat.le_of_not_lt hlt)
          rw [htaken] at hpayload
          refine .inr ⟨head, r₂.contents.take n, r₃, hhead, by rw [htaken, hcheck], ?_,
            hfailure₃.trans (hfailure₂.trans hfailure), ?_⟩
          · rw [hrest₃, take_append_drop, hsplit]
          · dsimp only
            rw [hpayload, htaken]

variable {r : Source UInt8 IoError} {rest : List UInt8}

theorem readFrame_of_valid (h : frame.Valid) (hcontents : r.contents = frame.encode ++ rest) :
    (readFrame r).result = .ok (some frame) ∧ (readFrame r).reader.contents = rest ∧
      (readFrame r).reader.failure = r.failure := by
  rw [Frame.encode, append_assoc] at hcontents
  have hheader := length_header frame.split.1 frame.split.2.1 (.ofNat frame.split.2.2.length)
  have hlong : headerBytes ≤ r.contents.length := by
    rw [hcontents, length_append]
    omega
  have hcheck := h.check
  rw [← parse_header] at hcheck
  obtain ⟨hnil, -⟩ | ⟨_, _, _, -, -, hshort | ⟨head, tail, hhead, hsplit, hmissing⟩⟩ |
    ⟨head, payload, r', hhead, hlen, hsplit, hfailure, hread⟩ := readFrame_cases r
  · rw [hnil] at hlong
    exact absurd hlong (by decide)
  · omega
  · obtain ⟨rfl, rfl⟩ := append_inj (hsplit.symm.trans hcontents) (hhead.trans hheader.symm)
    have hlt := hmissing _ hcheck
    rw [length_append] at hlt
    omega
  · obtain ⟨rfl, hrest⟩ := append_inj (hsplit.symm.trans hcontents) (hhead.trans hheader.symm)
    rw [hcheck, ok.injEq] at hlen
    obtain ⟨rfl, htail⟩ := append_inj hrest hlen.symm
    rw [hread, parse_header, h.frameOf]
    exact ⟨rfl, htail, hfailure⟩

theorem readFrame_canonical (hread : (readFrame r).result = .ok (some frame)) :
    frame.Valid ∧ r.contents = frame.encode ++ (readFrame r).reader.contents := by
  obtain ⟨-, hnone⟩ | ⟨e, r', n, herr, -⟩ | ⟨head, payload, r', hhead, hcheck, hsplit, -, hframe⟩ := readFrame_cases r
  · rw [hnone] at hread
    cases hread
  · rw [herr] at hread
    cases hread
  · rw [hframe] at hread ⊢
    obtain ⟨found, hfound, hsome⟩ := map_eq_ok hread
    cases hsome
    obtain ⟨hvalid, hparts⟩ := Frame.of_check hcheck hfound
    obtain ⟨hmagic, hversion, hflags, -, hlength, -⟩ := check_eq_ok.mp hcheck
    have hpayloadLen : UInt32.ofNat payload.length = (parse head).payloadLen := by rw [hlength, UInt32.ofNat_toNat]
    refine ⟨hvalid, ?_⟩
    rw [Frame.encode, hparts]
    rw [hpayloadLen, ← header_parse hhead hmagic hversion hflags, hsplit, append_assoc]

theorem readFrame_none (hread : (readFrame r).result = .ok none) : r.contents = [] := by
  obtain ⟨hnil, -⟩ | ⟨e, r', n, herr, -⟩ | ⟨head, payload, r', -, -, -, -, hframe⟩ := readFrame_cases r
  · exact hnil
  · rw [herr] at hread
    cases hread
  · rw [hframe] at hread
    obtain ⟨found, -, hsome⟩ := map_eq_ok hread
    cases hsome

theorem readFrame_allocated (r : Source UInt8 IoError) : (readFrame r).allocated ≤ maxDataBytes := by
  obtain ⟨-, hnone⟩ | ⟨e, r', n, herr, hle, -⟩ | ⟨head, payload, r', -, hcheck, -, -, hframe⟩ := readFrame_cases r
  · rw [hnone]
    exact zero_le _
  · rw [herr]
    exact hle
  · rw [hframe]
    dsimp only
    split
    case isTrue hkind =>
      -- a diagnostic is held twice, and twice its bound is within the bound of data
      have hsmall : payload.length ≤ maxDiagnosticBytes := by
        obtain ⟨-, -, -, -, -, most, hmost, hle, -⟩ := check_eq_ok.mp hcheck
        have hmax : most = maxDiagnosticBytes := by
          cases hkind with
          | inl hk | inr hk => rw [hk] at hmost; exact (some.inj hmost).symm
        exact hmax ▸ hle
      have htwice : maxDiagnosticBytes + maxDiagnosticBytes ≤ maxDataBytes := by decide
      omega
    case isFalse => exact check_le hcheck

/-! ## Whole streams -/

theorem readFrames_of_valid {frames : List Frame} (h : ∀ frame ∈ frames, frame.Valid)
    (hcontents : r.contents = frames.flatMap Frame.encode) (hfailure : r.failure = none) :
    readFrames (frames.length + 1) r = frames.map (fun frame => .ok (some frame)) ++ [.ok none] := by
  induction frames generalizing r with
  | nil =>
    show [(readFrame r).result] = _
    rw [readFrame, (Source.read_of_contents_nil 1 hcontents).1 hfailure]
    rfl
  | cons frame frames ih =>
    obtain ⟨hresult, hrest, hfail⟩ := readFrame_of_valid (h frame mem_cons_self) hcontents
    have htail := ih (fun f hf => h f (mem_cons_of_mem _ hf)) hrest (hfail.trans hfailure)
    show (readFrame r).result :: readFrames (frames.length + 1) (readFrame r).reader = _
    rw [hresult, htail]
    rfl

/-! ## Headers no frame has -/

/-- An unknown kind, a channel where none belongs or none where one does, or a length outside the
bounds of the kind. -/
def Malformed (kind : UInt8) (channelId payloadLen : UInt32) : Prop :=
  kind ∉ sessionKinds ++ channelKinds ∨ kind ∈ channelKinds ∧ channelId = 0 ∨ kind ∈ sessionKinds ∧ channelId ≠ 0 ∨
  kind = kindData ∧ (payloadLen.toNat = 0 ∨ maxDataBytes < payloadLen.toNat) ∨
  kind ∈ diagnosticKinds ∧ (payloadLen.toNat = 0 ∨ maxDiagnosticBytes < payloadLen.toNat) ∨
  (kind ≠ kindData ∧ kind ∉ diagnosticKinds) ∧ payloadLen.toNat ≠ 0

theorem ValidDiagnostic.length_ne_zero (h : ValidDiagnostic value) : (utf8 value).length ≠ 0 := by
  intro hzero
  exact h.1 (String.utf8ByteSize_eq_zero_iff.mp hzero)

variable {payloadLen : UInt32}

/-- The clauses of `Malformed`, refuted one by one. -/
theorem Frame.Valid.not_malformed (h : frame.Valid) :
    ¬ Malformed frame.split.1 frame.split.2.1 (.ofNat frame.split.2.2.length) := by
  have hsession : ∀ kind ∈ sessionKinds, sessionFrame kind = true := by decide +kernel
  have hchannels : ∀ kind ∈ channelKinds, sessionFrame kind = false := by decide +kernel
  have hdiagnostics : ∀ kind ∈ diagnosticKinds, maximum kind = some maxDiagnosticBytes := by decide +kernel
  have hempty : ∀ kind ∈ sessionKinds ++ channelKinds, kind ≠ kindData → kind ∉ diagnosticKinds →
      maximum kind = some 0 := by decide +kernel
  obtain ⟨hchannel, most, hmost, hle, hdata⟩ := h.within
  have hzero := validateChannel_eq_ok.mp hchannel
  rw [Malformed, h.toNat_length]
  rintro (hunknown | ⟨hk, hid⟩ | ⟨hk, hid⟩ | ⟨hk, hlen⟩ | ⟨hk, hlen⟩ | ⟨⟨hk, hk'⟩, hlen⟩)
  · exact hunknown (known_of_maximum hmost)
  · exact Bool.noConfusion ((hchannels _ hk).symm.trans (hzero.mpr hid))
  · exact hid (hzero.mp (hsession _ hk))
  · obtain hlen | hlen := hlen
    · exact hdata ⟨hk, hlen⟩
    · rw [hk] at hmost
      cases hmost
      omega
  · rw [hdiagnostics _ hk, some_inj] at hmost
    obtain hlen | hlen := hlen
    · cases frame with
      | channelRejected channelId reason => exact h.2.length_ne_zero hlen
      | sessionError reason => exact h.length_ne_zero hlen
      | _ => exact absurd hk (by simp [Frame.split, diagnosticKinds]; decide)
    · omega
  · rw [hempty _ (known_of_maximum hmost) hk hk', some_inj] at hmost
    omega

theorem header_inj {kind' : UInt8} {channelId' payloadLen' : UInt32}
    (h : header kind channelId payloadLen = header kind' channelId' payloadLen') :
    kind = kind' ∧ channelId = channelId' ∧ payloadLen = payloadLen' := by
  have hparse := congrArg parse h
  rw [parse_header, parse_header] at hparse
  cases hparse
  exact ⟨rfl, rfl, rfl⟩

theorem readFrame_error (hne : r.contents ≠ []) (hframe : ∀ frame, (readFrame r).result ≠ .ok (some frame)) :
    ∃ e, (readFrame r).result = .error e := by
  cases hresult : (readFrame r).result with
  | error e => exact ⟨e, rfl⟩
  | ok result =>
    cases result with
    | none => exact absurd (readFrame_none hresult) hne
    | some frame => exact absurd hresult (hframe frame)

theorem readFrame_malformed (hcontents : r.contents = header kind channelId payloadLen ++ rest)
    (hmalformed : Malformed kind channelId payloadLen) : ∃ e, (readFrame r).result = .error e := by
  apply readFrame_error
  · rw [hcontents]
    exact cons_ne_nil _ _
  · intro frame hread
    obtain ⟨hvalid, hencode⟩ := readFrame_canonical hread
    rw [hcontents, Frame.encode, append_assoc] at hencode
    obtain ⟨hkind, hchannel, hlength⟩ := header_inj (append_inj hencode rfl).1
    rw [hkind, hchannel, hlength] at hmalformed
    exact hvalid.not_malformed hmalformed

theorem length_encode (frame : Frame) : frame.encode.length = headerBytes + frame.split.2.2.length := by
  rw [Frame.encode, length_append, length_header]

theorem length_encode_of_append {frame' : Frame} (h : frame.Valid) (h' : frame'.Valid)
    {rest' : List UInt8} (happend : frame.encode ++ rest = frame'.encode ++ rest') :
    frame.encode.length = frame'.encode.length := by
  rw [Frame.encode, Frame.encode, append_assoc, append_assoc] at happend
  obtain ⟨-, -, hlength⟩ := header_inj (append_inj happend rfl).1
  have htoNat := congrArg UInt32.toNat hlength
  rw [h.toNat_length, h'.toNat_length] at htoNat
  rw [length_encode, length_encode, htoNat]

theorem readFrame_cut (h : frame.Valid) {cut : List UInt8}
    (hcut : frame.encode = cut ++ rest) (hstarted : cut ≠ []) (hmissing : rest ≠ [])
    (hcontents : r.contents = cut) : ∃ e, (readFrame r).result = .error e := by
  apply readFrame_error (hcontents ▸ hstarted)
  intro frame' hread
  obtain ⟨hvalid, hencode⟩ := readFrame_canonical hread
  -- the cut would hold a whole frame of the same length
  have happend : frame.encode ++ [] = frame'.encode ++ ((readFrame r).reader.contents ++ rest) := by
    rw [append_nil, hcut, ← hcontents, ← append_assoc, ← hencode]
  have hsame := length_encode_of_append h hvalid happend
  have hlengths := congrArg length hcut
  have hshort := congrArg length (hcontents.symm.trans hencode)
  rw [length_append] at hlengths hshort
  have := length_pos_iff.mpr hmissing
  omega

/-- The graphical relay's codec: every sequence of valid frames is read back from any cutting of
the written bytes, then a clean end; what is read as a frame is what writing it gives; writing
payload bytes directly is writing their data frame; a stream that stops inside a frame or starts
with a malformed header is an error; and no call makes room for more than the payload bound. -/
theorem frame_codec_is_exact : (∀ frames : List Frame, (∀ frame ∈ frames, frame.Valid) →
      ∃ written, writeFrames frames [] = (.ok (), written) ∧
        ∀ r : Source UInt8 IoError, r.contents = written → r.failure = none → readFrames (frames.length + 1) r =
            frames.map (fun frame => .ok (some frame)) ++ [.ok none]) ∧
    (∀ r frame, (readFrame r).result = .ok (some frame) → ∃ written, writeFrame frame [] = (.ok (), written) ∧
        r.contents = written ++ (readFrame r).reader.contents) ∧
    (∀ channelId payload out, writeDataFrame channelId payload out = writeFrame (.data channelId payload) out) ∧
    (∀ frame written cut rest r, writeFrame frame [] = (.ok (), written) →
      written = cut ++ rest → cut ≠ [] → rest ≠ [] → r.contents = cut → ∃ e, (readFrame r).result = .error e) ∧
    (∀ kind channelId payloadLen rest r, Malformed kind channelId payloadLen →
      r.contents = header kind channelId payloadLen ++ rest → ∃ e, (readFrame r).result = .error e) ∧
    ∀ r, (readFrame r).allocated ≤ maxDataBytes := by
  refine ⟨?_, ?_, writeDataFrame_eq, ?_, ?_, readFrame_allocated⟩
  · intro frames hvalid
    refine ⟨_, writeFrames_of_valid hvalid [], ?_⟩
    intro r hcontents hfailure
    exact readFrames_of_valid hvalid hcontents hfailure
  · intro r frame hread
    obtain ⟨hvalid, hencode⟩ := readFrame_canonical hread
    exact ⟨_, writeFrame_of_valid hvalid [], hencode⟩
  · intro frame written cut rest r hwrite hcut hstarted hmissing hcontents
    obtain ⟨hvalid, hwritten⟩ := writeFrame_eq_ok hwrite
    rw [hwritten] at hcut
    exact readFrame_cut hvalid hcut hstarted hmissing hcontents
  · intro kind channelId payloadLen rest r hmalformed hcontents
    exact readFrame_malformed hcontents hmalformed

/-- Three frames, cut inside a header and inside a payload. -/
theorem frames_in_pieces :
    let frames := [.hello, .openChannel 1, .data 1 [7, 8]]
    let written := (writeFrames frames []).2
    readFrames 4 ⟨[written.take 5, (written.drop 5).take 44, written.drop 49], none, by decide⟩ =
      [.ok (some .hello), .ok (some (.openChannel 1)), .ok (some (.data 1 [7, 8])), .ok none] := by
  intro frames written
  have hvalid : ∀ frame ∈ frames, frame.Valid := by
    intro frame hmem
    simp only [frames, mem_cons, not_mem_nil, or_false] at hmem
    obtain rfl | rfl | rfl := hmem
    · exact trivial
    · show (1 : UInt32) ≠ 0
      decide
    · show (1 : UInt32) ≠ 0 ∧ [(7 : UInt8), 8] ≠ [] ∧ _
      decide
  obtain ⟨out, hwrite, hread⟩ := frame_codec_is_exact.1 frames hvalid
  have hout : written = out := congrArg Prod.snd hwrite
  refine hread _ ?_ rfl
  rw [← hout]
  rfl

end Splinterm.Relay
