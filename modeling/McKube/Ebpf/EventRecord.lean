import McKube.Abi.Layout
import McKube.GoLib.Binary
import McKube.Ebpf.OverrunHook

/-!
# The event record

The hook submits a `struct event`; the monitor reads its bytes into the Go
structure `Event`, which has an explicit second pad where the compiler leaves a
gap of four bytes.

* `sample_eq`: the bytes of a `struct event`, one after the other.
* `event_agrees`: the two sides agree on the six fields.
-/

namespace McKube.Ebpf

open GoLib
open Abi (Scalar paddingBytes)

/-! ## The two structures -/

/-- The members of `struct event` in their order. -/
def Event.members (e : Event) : List (List UInt8) :=
  [Scalar.uint64.encode e.ts, Scalar.uint32.encode e.cpu, Scalar.uint32.encode e.nrRunning,
    Scalar.int64.encode e.runtimeNs, Scalar.uint32.encode e.pad, Scalar.uint64.encode e.tgPtr,
    Scalar.uint64.encode e.cgid]

/-- The sample that the hook submits. -/
def Event.sample (padding : Nat → UInt8) (e : Event) : List UInt8 :=
  Abi.layout padding e.members

namespace Monitor

/-- `Event` of the monitor. -/
structure Event where
  ts : UInt64
  cpu : UInt32
  nrRunning : UInt32
  runtimeNs : Int64
  pad1 : UInt32
  pad2 : UInt32
  tgPtr : UInt64
  cgid : UInt64
  deriving DecidableEq, Repr

open binary.Decoder in
/-- The fields of `Event` in their order. -/
def Event.decoder : binary.Decoder Event :=
  (((((((start Event.mk).field (scalar .uint64)).field (scalar .uint32)).field
    (scalar .uint32)).field (scalar .int64)).field (scalar .uint32)).field
    (scalar .uint32)).field (scalar .uint64) |>.field (scalar .uint64)

/-- The event has the six fields of the kernel's. -/
structure Event.Recovers (ev : Event) (e : Ebpf.Event) : Prop where
  ts : ev.ts = e.ts
  cpu : ev.cpu = e.cpu
  nrRunning : ev.nrRunning = e.nrRunning
  runtimeNs : ev.runtimeNs = e.runtimeNs
  tgPtr : ev.tgPtr = e.tgPtr
  cgid : ev.cgid = e.cgid

end Monitor

/-! ## The bytes of a sample -/

/-- The bytes of the members; the compiler leaves a gap in front of `tg_ptr`. -/
theorem layoutFrom_members (padding : Nat → UInt8) (e : Event) :
    Abi.layoutFrom padding 0 e.members =
      Scalar.uint64.encode e.ts ++ Scalar.uint32.encode e.cpu ++
        Scalar.uint32.encode e.nrRunning ++ Scalar.int64.encode e.runtimeNs ++
        Scalar.uint32.encode e.pad ++ paddingBytes padding 28 4 ++
        Scalar.uint64.encode e.tgPtr ++ Scalar.uint64.encode e.cgid := by
  unfold Event.members
  rw [Abi.layoutFrom_of_dvd (by simp), Abi.layoutFrom_of_dvd (by simp),
    Abi.layoutFrom_of_dvd (by simp), Abi.layoutFrom_of_dvd (by simp),
    Abi.layoutFrom_of_dvd (by simp)]
  -- 28 is not a multiple of 8, so that `tg_ptr` comes at 32
  rw [Abi.layoutFrom, Abi.layoutFrom_of_dvd (by simp [Abi.gap]), Abi.layoutFrom]
  simp [Abi.gap]

/-- There is no padding at the end. -/
theorem sample_eq (padding : Nat → UInt8) (e : Event) :
    e.sample padding =
      Scalar.uint64.encode e.ts ++ Scalar.uint32.encode e.cpu ++
        Scalar.uint32.encode e.nrRunning ++ Scalar.int64.encode e.runtimeNs ++
        Scalar.uint32.encode e.pad ++ paddingBytes padding 28 4 ++
        Scalar.uint64.encode e.tgPtr ++ Scalar.uint64.encode e.cgid := by
  have halignment : Abi.alignment e.members = 8 := by simp [Abi.alignment, Event.members]
  unfold Event.sample Abi.layout
  rw [halignment, layoutFrom_members]
  simp [Abi.gap]

/-- Both pads are bytes that the monitor reads over. -/
theorem decode_append {b₁ b₂ b₃ b₄ b₅ b₆ b₇ b₈ : List UInt8} (h₁ : b₁.length = 8)
    (h₂ : b₂.length = 4) (h₃ : b₃.length = 4) (h₄ : b₄.length = 8) (h₅ : b₅.length = 4)
    (h₆ : b₆.length = 4) (h₇ : b₇.length = 8) :
    Monitor.Event.decoder.decode (b₁ ++ b₂ ++ b₃ ++ b₄ ++ b₅ ++ b₆ ++ b₇ ++ b₈) =
      { ts := Scalar.uint64.decode b₁
        cpu := Scalar.uint32.decode b₂
        nrRunning := Scalar.uint32.decode b₃
        runtimeNs := Scalar.int64.decode b₄
        pad1 := Scalar.uint32.decode b₅
        pad2 := Scalar.uint32.decode b₆
        tgPtr := Scalar.uint64.decode b₇
        cgid := Scalar.uint64.decode b₈ } := by
  unfold Monitor.Event.decoder
  rw [binary.Decoder.decode_field_append, binary.Decoder.decode_field_append,
    binary.Decoder.decode_field_append, binary.Decoder.decode_field_append,
    binary.Decoder.decode_field_append, binary.Decoder.decode_field_append,
    binary.Decoder.decode_field_append]
  · rfl
  -- the fields before each one are as long as the bytes before it
  all_goals simp only [List.length_append, h₁, h₂, h₃, h₄, h₅, h₆, h₇]; rfl

theorem length_sample (padding : Nat → UInt8) (e : Event) : (e.sample padding).length = 48 := by
  rw [sample_eq]
  simp

/-! ## Agreement -/

/-- What the monitor reads from the sample of an event, whatever the padding. -/
theorem read_sample (padding : Nat → UInt8) (e : Event) :
    ∃ ev, binary.read Monitor.Event.decoder (e.sample padding) = .ok ev ∧ ev.Recovers e := by
  refine ⟨_, binary.read_of_length (length_sample padding e), ?_⟩
  rw [sample_eq, decode_append (by simp) (by simp) (by simp) (by simp) (by simp) (by simp)
    (by simp)]
  exact
    { ts := Scalar.uint64.decode_encode e.ts
      cpu := Scalar.uint32.decode_encode e.cpu
      nrRunning := Scalar.uint32.decode_encode e.nrRunning
      runtimeNs := Scalar.int64.decode_encode e.runtimeNs
      tgPtr := Scalar.uint64.decode_encode e.tgPtr
      cgid := Scalar.uint64.decode_encode e.cgid }

/-- The padding that puts four given bytes into the gap. -/
def gapBytes (bytes : List UInt8) (offset : Nat) : UInt8 := bytes.getD (offset - 28) 0

theorem paddingBytes_gapBytes {bytes : List UInt8} (hlength : bytes.length = 4) :
    paddingBytes (gapBytes bytes) 28 4 = bytes := by
  apply List.ext_getElem
  · simp [hlength]
  · intro i hi hi'
    simp [paddingBytes, gapBytes, List.getElem?_eq_getElem hi']

/-- A list of 48 bytes, cut at the fields of `Event`. -/
theorem exists_fields {sample : List UInt8} (hlength : sample.length = 48) :
    ∃ b₁ b₂ b₃ b₄ b₅ b₆ b₇ b₈ : List UInt8,
      sample = b₁ ++ b₂ ++ b₃ ++ b₄ ++ b₅ ++ b₆ ++ b₇ ++ b₈ ∧ b₁.length = 8 ∧ b₂.length = 4 ∧
        b₃.length = 4 ∧ b₄.length = 8 ∧ b₅.length = 4 ∧ b₆.length = 4 ∧ b₇.length = 8 ∧
        b₈.length = 8 := by
  have hcut : ∀ (m n : Nat) (bytes : List UInt8), bytes.length = m + n →
      ∃ init last, bytes = init ++ last ∧ init.length = m ∧ last.length = n := by
    intro m n bytes hbytes
    refine ⟨bytes.take m, bytes.drop m, (List.take_append_drop m bytes).symm, ?_, ?_⟩
    · rw [List.length_take]
      omega
    · rw [List.length_drop]
      omega
  obtain ⟨s₇, b₈, rfl, hs₇, h₈⟩ := hcut 40 8 sample hlength
  obtain ⟨s₆, b₇, rfl, hs₆, h₇⟩ := hcut 32 8 s₇ hs₇
  obtain ⟨s₅, b₆, rfl, hs₅, h₆⟩ := hcut 28 4 s₆ hs₆
  obtain ⟨s₄, b₅, rfl, hs₄, h₅⟩ := hcut 24 4 s₅ hs₅
  obtain ⟨s₃, b₄, rfl, hs₃, h₄⟩ := hcut 16 8 s₄ hs₄
  obtain ⟨s₂, b₃, rfl, hs₂, h₃⟩ := hcut 12 4 s₃ hs₃
  obtain ⟨b₁, b₂, rfl, h₁, h₂⟩ := hcut 8 4 s₂ hs₂
  exact ⟨b₁, b₂, b₃, b₄, b₅, b₆, b₇, b₈, rfl, h₁, h₂, h₃, h₄, h₅, h₆, h₇, h₈⟩

/-- Every sample of 48 bytes is that of an event. -/
theorem exists_sample_eq {sample : List UInt8} (hlength : sample.length = 48) :
    ∃ (e : Event) (padding : Nat → UInt8), e.sample padding = sample := by
  obtain ⟨b₁, b₂, b₃, b₄, b₅, b₆, b₇, b₈, rfl, h₁, h₂, h₃, h₄, h₅, h₆, h₇, h₈⟩ :=
    exists_fields hlength
  let e : Event :=
    { ts := Scalar.uint64.decode b₁
      cpu := Scalar.uint32.decode b₂
      nrRunning := Scalar.uint32.decode b₃
      runtimeNs := Scalar.int64.decode b₄
      pad := Scalar.uint32.decode b₅
      tgPtr := Scalar.uint64.decode b₇
      cgid := Scalar.uint64.decode b₈ }
  refine ⟨e, gapBytes b₆, ?_⟩
  rw [sample_eq, paddingBytes_gapBytes h₆]
  rw [Scalar.uint64.encode_decode b₁ h₁, Scalar.uint32.encode_decode b₂ h₂,
    Scalar.uint32.encode_decode b₃ h₃, Scalar.int64.encode_decode b₄ h₄,
    Scalar.uint32.encode_decode b₅ h₅, Scalar.uint64.encode_decode b₇ h₇,
    Scalar.uint64.encode_decode b₈ h₈]

/-- The sample of an event has 48 bytes, and the monitor reads the six fields from
it whatever the two pads are; and what the monitor reads from any 48 bytes are the
fields of an event with this sample. -/
theorem event_agrees :
    (∀ (e : Event) (padding : Nat → UInt8), (e.sample padding).length = 48 ∧
        ∃ ev, binary.read Monitor.Event.decoder (e.sample padding) = .ok ev ∧ ev.Recovers e) ∧
      ∀ sample : List UInt8, sample.length = 48 →
        ∃ ev, binary.read Monitor.Event.decoder sample = .ok ev ∧
          ∃ (e : Event) (padding : Nat → UInt8), e.sample padding = sample ∧ ev.Recovers e := by
  refine ⟨fun e padding => ⟨length_sample padding e, read_sample padding e⟩, ?_⟩
  intro sample hlength
  obtain ⟨e, padding, rfl⟩ := exists_sample_eq hlength
  obtain ⟨ev, hread, hrecovers⟩ := read_sample padding e
  exact ⟨ev, hread, e, padding, rfl, hrecovers⟩

end McKube.Ebpf
