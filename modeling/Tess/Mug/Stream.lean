import Tess.Formats.Lossy
import Tess.Mug.Camera

/-!
# The camera

The driver of a camera lends its buffers: they are mapped, queued for the driver to fill, dequeued
and queued again, and unmapped when the camera is dropped. This module follows `mug/src/sys.rs`, and
`V4l2IrDevice` and `find_brio_ir_node` of `mug/src/camera/hw.rs`. The kernel answers every call in
any way. Times are in nanoseconds, and timeouts in milliseconds.
-/

namespace Tess

namespace Mug

open Text Effects

namespace Sys

/-! ## System calls -/

/-- An error of the system, with its number where it has one. -/
structure IoError where
  rawOsError : Option ℕ
  display : String

def IoError.other (what : String) : IoError := ⟨none, what⟩

def eintr : ℕ := 4

def einval : ℕ := 22

def pollin : ℕ := 0x1

def pollerr : ℕ := 0x8

def pollhup : ℕ := 0x10

def pollnval : ℕ := 0x20

def fourcc (a b c d : UInt8) : ℕ :=
  a.toNat ||| b.toNat <<< 8 ||| c.toNat <<< 16 ||| d.toNat <<< 24

def v4l2PixFmtGrey : ℕ := fourcc 71 82 69 89

/-- The name of a file. -/
abbrev OsPath := List UInt8

/-- Where a buffer is mapped. -/
structure Mapping where
  ptr : ℕ
  length : ℕ
  deriving DecidableEq

inductive Op where
  | now
  | readDir (dir : OsPath)
  | openFile (path : OsPath)
  | close (fd : ℕ)
  | enumFmt (fd index : ℕ)
  | sFmt (fd width height pixelformat : ℕ)
  | reqbufs (fd count : ℕ)
  | querybuf (fd index : ℕ)
  | mmap (fd length offset : ℕ)
  | munmap (mapping : Mapping)
  | qbuf (fd index : ℕ)
  | dqbuf (fd : ℕ)
  | streamon (fd : ℕ)
  | streamoff (fd : ℕ)
  | poll (fd : ℕ) (timeout : ℤ)
  | copy (ptr count : ℕ)

/-- What the calls return. `sFmt` grants a size and a pixel format, `querybuf` tells the length and
the union `m`, `dqbuf` the index and how many bytes are used, and `poll` the events, if there are
any before the timeout. -/
@[reducible] def Op.Res : Op → Type
  | .now => ℕ
  | .readDir _ => Except IoError (List (Except IoError OsPath))
  | .openFile _ => Except IoError ℕ
  | .enumFmt .. => Except IoError ℕ
  | .sFmt .. => Except IoError (ℕ × ℕ × ℕ)
  | .reqbufs .. => Except IoError ℕ
  | .querybuf .. => Except IoError (ℕ × ℕ)
  | .mmap .. => Except IoError ℕ
  | .munmap _ | .close _ => Unit
  | .qbuf .. | .streamon _ | .streamoff _ => Except IoError Unit
  | .dqbuf _ => Except IoError (ℕ × ℕ)
  | .poll .. => Except IoError (Option ℕ)
  | .copy _ count => {data : List UInt8 // data.length = count}

abbrev Event := Answer Op.Res

abbrev Io := ExceptT (Stop IoError) (Prog Op.Res)

/-- A call, with its answer. -/
def sys {ε : Type} (o : Op) : ExceptT (Stop ε) (Prog Op.Res) o.Res := ask o .ok

def failing {α : Type} (x : Except IoError α) : Except (Stop IoError) α := x.mapError .failed

theorem failing_eq_ok {α : Type} {x : Except IoError α} {a : α} :
    failing x = .ok a ↔ x = .ok a := mapError_eq_ok

theorem failing_eq_error {α : Type} {x : Except IoError α} {e : Stop IoError} :
    failing x = .error e ↔ ∃ e', x = .error e' ∧ e = .failed e' := by
  cases x with
  | error e' =>
    constructor
    · intro h
      exact ⟨e', rfl, (Except.error.inj h).symm⟩
    · rintro ⟨_, ⟨⟩, rfl⟩
      rfl
  | ok a =>
    constructor
    · nofun
    · rintro ⟨_, ⟨⟩, _⟩

/-! ## Formats -/

def enumRound (fd : ℕ) (formats : List ℕ) : Io (List ℕ ⊕ List ℕ) := do
  match ← sys (.enumFmt fd formats.length) with
  | .ok pixelformat => pure (.inl (formats ++ [pixelformat]))
  | .error e =>
    if e.rawOsError = some einval then pure (.inr formats) else throw (.failed e)

def enumCapturePixelformats (fd rounds : ℕ) : Io (List ℕ) := loop (enumRound fd) rounds []

/-- A number in hexadecimal, with at least so many digits. -/
def hex (digits n : ℕ) : String :=
  let ds := Nat.toDigits 16 n
  "0x" ++ String.ofList (List.replicate (digits - ds.length) '0' ++ ds)

def setGreyFormat (fd width height : ℕ) : Io (ℕ × ℕ) := do
  let (w, h, pixelformat) ← ask (.sFmt fd width height v4l2PixFmtGrey) failing
  if pixelformat ≠ v4l2PixFmtGrey then
    throw (.failed (.other ("driver granted pixelformat " ++ hex 8 pixelformat ++
      ", not GREY (" ++ hex 8 v4l2PixFmtGrey ++ ")")))
  else pure (w, h)

/-! ## Waiting -/

def i32Max : ℕ := 2 ^ 31 - 1

/-- What is left until the deadline, for `poll`. -/
def pollTimeout : Option ℕ → Io ℤ
  | some deadline => do
    let t ← sys .now
    pure (min ((deadline - t) / 1000000) i32Max : ℕ)
  | none => pure (-1)

/-- Whether a frame is ready, or to wait again after a signal. -/
def judgePoll : Except IoError (Option ℕ) → Except (Stop IoError) (Unit ⊕ Bool)
  | .error e => if e.rawOsError = some eintr then .ok (.inl ()) else .error (.failed e)
  | .ok none => .ok (.inr false)
  | .ok (some revents) =>
    if revents &&& pollin ≠ 0 then .ok (.inr true)
    else if revents &&& (pollerr ||| pollhup ||| pollnval) ≠ 0 then
      .error (.failed (.other ("poll on camera fd reported revents " ++ hex 1 revents ++
        " (device error/hangup)")))
    else .ok (.inr false)

def pollRound (fd : ℕ) (deadline : Option ℕ) : Io (Unit ⊕ Bool) := do
  let remaining ← pollTimeout deadline
  ask (.poll fd remaining) judgePoll

def pollReadable (fd : ℕ) (timeoutMs : ℤ) (rounds : ℕ) : Io Bool :=
  if 0 ≤ timeoutMs then do
    let start ← sys .now
    loop (fun () => pollRound fd (some (start + timeoutMs.toNat * 1000000))) rounds ()
  else loop (fun () => pollRound fd none) rounds ()

/-! ## The stream -/

structure MmapStream where
  fd : ℕ
  buffers : List Mapping
  streaming : Bool

namespace MmapStream

def unmapAll {ε : Type} : List Mapping → ExceptT (Stop ε) (Prog Op.Res) Unit
  | [] => pure ()
  | b :: bs => do
    sys (.munmap b)
    unmapAll bs

def drop {ε : Type} (s : MmapStream) : ExceptT (Stop ε) (Prog Op.Res) Unit := do
  if s.streaming then
    let _ ← sys (.streamoff s.fd)
  unmapAll s.buffers

/-- Map and queue the buffers that remain. Those that are mapped are the stream's, also where this
fails. -/
def mapBuffers (fd : ℕ) : List ℕ → List Mapping → Io (Except IoError Unit × List Mapping)
  | [], buffers => pure (.ok (), buffers)
  | index :: rest, buffers => do
    match ← sys (.querybuf fd index) with
    | .error e => pure (.error e, buffers)
    | .ok (length, m) =>
      -- the offset is the lower half of the union
      match ← sys (.mmap fd length (m % 2 ^ 32)) with
      | .error e => pure (.error e, buffers)
      | .ok ptr =>
        let buffers := buffers ++ [⟨ptr, length⟩]
        match ← sys (.qbuf fd index) with
        | .error e => pure (.error e, buffers)
        | .ok () => mapBuffers fd rest buffers

def start (fd count : ℕ) : Io MmapStream := do
  let granted ← ask (.reqbufs fd count) failing
  if granted = 0 then throw (.failed (.other "driver granted zero capture buffers"))
  else do
    let (mapped, buffers) ← mapBuffers fd (List.range granted) []
    match mapped with
    | .error e => do
      drop ⟨fd, buffers, false⟩
      throw (.failed e)
    | .ok () =>
      match ← sys (.streamon fd) with
      | .error e => do
        drop ⟨fd, buffers, false⟩
        throw (.failed e)
      | .ok () => pure ⟨fd, buffers, true⟩

/-- The frame in a buffer, if it is as long as it should be. -/
def copyFrame (b : Mapping) (bytesused expectedLen : ℕ) : Io (Option (List UInt8)) :=
  if bytesused = expectedLen ∧ expectedLen ≤ b.length then do
    let out ← sys (.copy b.ptr expectedLen)
    pure (some out.1)
  else pure none

def sizeMismatch (bytesused expectedLen mapped : ℕ) : IoError :=
  .other ("V4L2 frame size mismatch: driver reported " ++ toString bytesused ++ " bytes for an " ++
    toString expectedLen ++ "-byte frame (mapped " ++ toString mapped ++
    "); failing closed rather than padding")

/-- The frame is copied before its buffer is queued again. -/
def dequeue (s : MmapStream) (timeoutMs : ℤ) (expectedLen rounds : ℕ) :
    Io (Option (List UInt8)) := do
  let ready ← pollReadable s.fd timeoutMs rounds
  if ready then do
    let (index, bytesused) ← ask (.dqbuf s.fd) failing
    match s.buffers[index]? with
    | none =>
      throw (.failed (.other ("DQBUF returned out-of-range index " ++ toString index)))
    | some b =>
      let frame ← copyFrame b bytesused expectedLen
      ask (.qbuf s.fd index) failing
      match frame with
      | some out => pure (some out)
      | none => throw (.failed (sizeMismatch bytesused expectedLen b.length))
  else pure none

end MmapStream

/-! ## The device -/

abbrev DeviceIo (F : Type) := ExceptT (Stop (MugError F)) (Prog Op.Res)

variable {F : Type}

def display (path : OsPath) : String := String.ofList (fromUtf8Lossy path)

/-- An error of the camera, from one of the system. -/
def cameraContext {α : Type} (what : String) (x : Io α) : DeviceIo F α :=
  rethrow (fun e => .camera (what ++ ": " ++ e.display)) x

structure V4l2IrDevice where
  stream : MmapStream
  width : ℕ
  height : ℕ

namespace V4l2IrDevice

def configure (fd : ℕ) (path : OsPath) (width height : ℕ) : DeviceIo F MmapStream := do
  let (gw, gh) ← cameraContext ("set GREY format on " ++ display path)
    (setGreyFormat fd width height)
  if (gw, gh) ≠ (width, height) then
    throw (.failed (.camera ("driver granted " ++ toString gw ++ "x" ++ toString gh ++
      ", expected " ++ toString width ++ "x" ++ toString height)))
  else cameraContext ("start MMAP streaming on " ++ display path) (MmapStream.start fd 4)

def openFile (path : OsPath) : DeviceIo F ℕ :=
  cameraContext ("open " ++ display path) (ask (.openFile path) failing)

/-- `V4l2IrDevice::open`. The file is closed if there is no device in the end. -/
def openDevice (path : OsPath) (width height : ℕ) : DeviceIo F V4l2IrDevice := do
  let fd ← openFile path
  match ← settle (configure fd path width height) with
  | .ok stream => pure ⟨stream, width, height⟩
  | .error e => do
    sys (.close fd)
    throw (.failed e)

def capture (dev : V4l2IrDevice) (deadlineMs rounds : ℕ) : DeviceIo F IrFrame := do
  let frame ← cameraContext "dequeue frame" (dev.stream.dequeue (min deadlineMs i32Max : ℕ)
    (dev.width * dev.height) rounds)
  match frame with
  | some buf => ofResult ((IrFrame.new dev.width dev.height buf).mapError .failed)
  | none => throw (.failed (.timeout deadlineMs))

/-- The stream is dropped before the file it is read from. -/
def drop (dev : V4l2IrDevice) : DeviceIo F Unit := do
  dev.stream.drop
  sys (.close dev.stream.fd)

end V4l2IrDevice

/-! ## Looking for the camera -/

def v4lByIdDir : String := "/dev/v4l/by-id"

def brioIrWidth : ℕ := 340

def brioIrHeight : ℕ := 340

def nodeOffersGrey (path : OsPath) (rounds : ℕ) : DeviceIo F Bool := do
  let fd ← V4l2IrDevice.openFile path
  let formats ← ensuring (cameraContext ("enum formats on " ++ display path)
    (enumCapturePixelformats fd rounds)) (.close fd)
  pure (formats.contains v4l2PixFmtGrey)

/-- The names of the nodes encode the vendor and the product. -/
def looksLikeBrio (fileName : OsPath) : Prop :=
  "brio".toList <:+: (fromUtf8Lossy fileName).map Char.toLower ∨
    "046d".toList <:+: (fromUtf8Lossy fileName).map Char.toLower

instance (fileName : OsPath) : Decidable (looksLikeBrio fileName) :=
  inferInstanceAs (Decidable (_ ∨ _))

def nodePath (fileName : OsPath) : OsPath := utf8 (v4lByIdDir ++ "/").toList ++ fileName

/-- Go through the entries of the directory. What a node that looks right has failed with is
remembered. -/
def probeAll (rounds : ℕ) :
    List (Except IoError OsPath) → Option (MugError F) → DeviceIo F OsPath
  | [], lastErr => throw (.failed (lastErr.getD .noIrNode))
  | .error e :: _, _ => throw (.failed (.camera ("read dir entry: " ++ e.display)))
  | .ok fileName :: entries, lastErr =>
    if looksLikeBrio fileName then do
      match ← settle (nodeOffersGrey (nodePath fileName) rounds) with
      | .ok true => pure (nodePath fileName)
      | .ok false => probeAll rounds entries lastErr
      | .error e => probeAll rounds entries (some e)
    else probeAll rounds entries lastErr

def findBrioIrNode (rounds : ℕ) : DeviceIo F OsPath := do
  let entries ← cameraContext ("read " ++ v4lByIdDir)
    (ask (.readDir (utf8 v4lByIdDir.toList)) failing)
  probeAll rounds entries none

def V4l2IrDevice.openBrio (rounds : ℕ) : DeviceIo F V4l2IrDevice := do
  let node ← findBrioIrNode rounds
  openDevice node brioIrWidth brioIrHeight

end Sys

end Mug

end Tess
