import Mathlib.Data.Finset.Basic
import Mathlib.Data.Finset.Range
import Tess.Effects.Monitors
import Tess.Mug.Stream

/-!
# Whose buffers they are

A monitor follows the descriptor of a camera, its mappings, and which of its buffers are the
driver's. It allows a buffer to be read only within its mapping, and while it is not the driver's;
to be unmapped only once and when the stream is off; and to be queued only when it is not.
-/

namespace Tess

namespace Mug

open Effects

variable {F : Type}

theorem IrFrame.new_ok {width height : ℕ} {data : List UInt8} {frame : IrFrame}
    (h : (IrFrame.new width height data : Except (MugError F) IrFrame) = .ok frame) :
    (frame.width, frame.height) = (width, height) ∧ frame.data = data := by
  unfold IrFrame.new at h
  split_ifs at h
  obtain rfl := Except.ok.inj h
  exact ⟨rfl, rfl⟩

namespace Sys

/-! ## The monitor -/

/-- What a process has of the camera. A buffer that could not be queued again is lost. -/
structure Held where
  fd : Option ℕ
  maps : List Mapping
  queued : Finset ℕ
  streaming : Bool
  lost : Bool
  deriving DecidableEq

namespace Held

def nothing : Held := ⟨none, [], ∅, false, false⟩

/-- Every buffer is the driver's. -/
def Full (s : Held) : Prop := s.queued = Finset.range s.maps.length

/-- The bytes that are read are those of a buffer that the driver has handed over. -/
def Readable (s : Held) (ptr count : ℕ) : Prop :=
  ∃ index b, s.maps[index]? = some b ∧ b.ptr = ptr ∧ count ≤ b.length ∧ index ∉ s.queued

/-- What may be done with the camera. -/
def Allows (s : Held) : Op → Prop
  | .now | .readDir _ => True
  | .openFile _ => s = nothing
  | .close fd => s.fd = some fd ∧ s.maps = [] ∧ s.streaming = false
  | .enumFmt fd _ | .sFmt fd .. | .reqbufs fd _ | .querybuf fd _ | .mmap fd .. =>
    s.fd = some fd ∧ s.streaming = false
  | .munmap b => b ∈ s.maps ∧ s.streaming = false
  | .qbuf fd index => s.fd = some fd ∧ index < s.maps.length ∧ index ∉ s.queued
  | .streamon fd => s.fd = some fd ∧ s.streaming = false ∧ s.Full
  | .poll fd _ | .streamoff fd => s.fd = some fd ∧ s.streaming = true
  | .dqbuf fd => s.fd = some fd ∧ s.streaming = true ∧ (s.lost = false → s.Full)
  | .copy ptr count => s.streaming = true ∧ s.Readable ptr count

/-- The driver hands over a buffer only if it has it. -/
def Trusts (s : Held) : Event → Prop
  | ⟨.dqbuf _, .ok (index, _)⟩ => index < s.maps.length → index ∈ s.queued
  | _ => True

def next (s : Held) : Event → Held
  | ⟨.openFile _, .ok fd⟩ => { s with fd := some fd }
  | ⟨.close _, _⟩ => { s with fd := none, queued := ∅, lost := false }
  | ⟨.mmap _ length _, .ok ptr⟩ => { s with maps := s.maps ++ [⟨ptr, length⟩] }
  | ⟨.munmap b, _⟩ => { s with maps := s.maps.erase b }
  | ⟨.qbuf _ index, .ok ()⟩ => { s with queued := insert index s.queued }
  | ⟨.qbuf _ _, .error _⟩ => { s with lost := true }
  | ⟨.dqbuf _, .ok (index, _)⟩ =>
    if index < s.maps.length then { s with queued := s.queued.erase index }
    else { s with lost := true }
  | ⟨.streamon _, .ok ()⟩ => { s with streaming := true }
  | ⟨.streamoff _, _⟩ => { s with streaming := false, queued := ∅ }
  | _ => s

end Held

def ownership : Monitor Op.Res Held where
  allows := Held.Allows
  trusts := Held.Trusts
  next := Held.next

/-! ## A camera in use -/

/-- What has come of the captures so far. -/
abbrev Frames (F : Type) := List (Except (MugError F) IrFrame)

/-- Capture for a user who, from what has come of it so far, asks for a frame within a deadline or
has enough; at most so often. -/
def V4l2IrDevice.serve (dev : V4l2IrDevice) (user : Frames F → Option ℕ) (rounds : ℕ) :
    ℕ → Frames F → DeviceIo F (Frames F)
  | 0, frames => pure frames
  | n + 1, frames =>
    match user frames with
    | none => pure frames
    | some deadlineMs => do
      let frame ← settle (dev.capture deadlineMs rounds)
      serve dev user rounds n (frames ++ [frame])

/-- The camera at a node, or the one that is found. -/
def V4l2IrDevice.openAt (node : Option OsPath) (rounds : ℕ) : DeviceIo F V4l2IrDevice :=
  match node with
  | some path => openDevice path brioIrWidth brioIrHeight
  | none => openBrio rounds

/-- A camera from when it is opened until it is dropped. -/
def lifetime (node : Option OsPath) (user : Frames F → Option ℕ) (captures rounds : ℕ) :
    DeviceIo F (Frames F) := do
  let dev ← V4l2IrDevice.openAt node rounds
  let frames ← dev.serve user rounds captures []
  dev.drop
  pure frames

/-! ## Opening and dropping -/

/-- A stream has what the process has. -/
structure Streams (stream : MmapStream) (s : Held) : Prop where
  fd : s.fd = some stream.fd
  maps : s.maps = stream.buffers
  streaming : s.streaming = stream.streaming

/-- A stream that runs, with every buffer with the driver unless one was lost. -/
structure Runs (stream : MmapStream) (s : Held) : Prop extends Streams stream s where
  on : stream.streaming = true
  full : s.lost = false → s.Full
  bounded : s.queued ⊆ Finset.range s.maps.length

/-- Nothing but the descriptor. -/
structure Opened (fd : ℕ) (s : Held) : Prop where
  fd : s.fd = some fd
  maps : s.maps = []
  off : s.streaming = false

variable {s : Held}

theorem unmapAll_secures {ε : Type} {fd : ℕ} {buffers : List Mapping} (hfd : s.fd = some fd)
    (hmaps : s.maps = buffers) (hoff : s.streaming = false) :
    ownership.Secures (MmapStream.unmapAll (ε := ε) buffers)
      (fun r s => r = .ok () ∧ Opened fd s) s := by
  induction buffers generalizing s with
  | nil => exact Monitor.secures_pure ⟨rfl, hfd, hmaps, hoff⟩
  | cons b bs ih =>
    refine Monitor.secures_ask_bind ⟨by simp [hmaps], hoff⟩ (fun _ _ _ _ => ?_) fun _ _ _ => nofun
    exact ih hfd (by simp [ownership, Held.next, hmaps]) hoff

theorem drop_secures {ε : Type} {stream : MmapStream} (h : Streams stream s) :
    ownership.Secures (stream.drop (ε := ε)) (fun r s => r = .ok () ∧ Opened stream.fd s) s := by
  obtain ⟨hfd, hmaps, hon⟩ := h
  unfold MmapStream.drop
  cases hs : stream.streaming with
  | false => exact unmapAll_secures hfd hmaps (hon.trans hs)
  | true =>
    refine Monitor.secures_ask_bind ⟨hfd, hon.trans hs⟩ (fun _ _ _ _ => ?_) fun _ _ _ => nofun
    exact unmapAll_secures hfd hmaps rfl

theorem mapBuffers_secures {fd n : ℕ} {buffers : List Mapping} (hfd : s.fd = some fd)
    (hmaps : s.maps = buffers) (hoff : s.streaming = false) (hfull : s.Full) :
    ownership.Secures (MmapStream.mapBuffers fd (List.range' buffers.length n) buffers)
      (fun r s => ∃ outcome buffers, r = .ok (outcome, buffers) ∧ s.fd = some fd ∧
        s.maps = buffers ∧ s.streaming = false ∧ (outcome = .ok () → s.Full)) s := by
  induction n generalizing s buffers with
  | zero => exact Monitor.secures_pure ⟨.ok (), buffers, rfl, hfd, hmaps, hoff, fun _ => hfull⟩
  | succ n ih =>
    refine Monitor.secures_ask_bind ⟨hfd, hoff⟩ (fun found a _ ha => ?_) fun _ _ _ => nofun
    obtain rfl := Except.ok.inj ha
    cases found with
    | error e => exact Monitor.secures_pure ⟨.error e, buffers, rfl, hfd, hmaps, hoff, nofun⟩
    | ok found =>
      refine Monitor.secures_ask_bind ⟨hfd, hoff⟩ (fun mapped a _ ha => ?_) fun _ _ _ => nofun
      obtain rfl := Except.ok.inj ha
      cases mapped with
      | error e => exact Monitor.secures_pure ⟨.error e, buffers, rfl, hfd, hmaps, hoff, nofun⟩
      | ok ptr =>
        have hlen : (s.maps ++ [Mapping.mk ptr found.1]).length = buffers.length + 1 := by simp [hmaps]
        refine Monitor.secures_ask_bind ⟨hfd, ?_, ?_⟩ (fun queued a _ ha => ?_) fun _ _ _ => nofun
        · exact hlen ▸ Nat.lt_succ_self _
        · have hlast : buffers.length ∉ s.queued := by
            rw [hfull, hmaps]
            simp
          exact hlast
        · obtain rfl := Except.ok.inj ha
          have hmaps' : s.maps ++ [Mapping.mk ptr found.1] = buffers ++ [⟨ptr, found.1⟩] := by rw [hmaps]
          cases queued with
          | error e => exact Monitor.secures_pure ⟨.error e, _, rfl, hfd, hmaps', hoff, nofun⟩
          | ok u =>
            have hfull' : insert buffers.length s.queued =
                Finset.range (s.maps ++ [Mapping.mk ptr found.1]).length := by
              rw [hlen, Finset.range_add_one, hfull, hmaps]
            have hrest := ih (s := { s with
              maps := s.maps ++ [⟨ptr, found.1⟩], queued := insert buffers.length s.queued })
              hfd hmaps' hoff hfull'
            rw [List.length_append, List.length_singleton] at hrest
            exact hrest

/-- Streaming starts, or everything that was mapped is unmapped again. -/
theorem start_secures {fd count : ℕ} (h : Opened fd s) (hlost : s.queued = ∅) :
    ownership.Secures (MmapStream.start fd count)
      (fun r s => (∀ stream, r = .ok stream → stream.fd = fd ∧ Runs stream s) ∧
        ∀ e, r = .error e → e ≠ .running ∧ Opened fd s) s := by
  obtain ⟨hfd, hmaps, hoff⟩ := h
  have hfull : s.Full := by rw [Held.Full, hmaps, hlost, List.length_nil, Finset.range_zero]
  unfold MmapStream.start
  refine Monitor.secures_ask_bind ⟨hfd, hoff⟩ (fun granted n _ hn => ?_) fun granted e _ he => ?_
  · have hsame : ownership.next s ⟨.reqbufs fd count, granted⟩ = s := rfl
    rw [hsame]
    split_ifs
    · refine Monitor.secures_throw ⟨nofun, ?_⟩
      rintro _ ⟨⟩
      exact ⟨nofun, hfd, hmaps, hoff⟩
    refine Monitor.Secures.bind (Monitor.Secures.mono (List.range_eq_range' ▸
      mapBuffers_secures hfd hmaps hoff hfull) ?_)
    rintro _ s ⟨outcome, buffers, rfl, hfd, hmaps, hoff, hfull⟩
    refine ⟨?_, nofun⟩
    rintro _ ⟨⟩
    have hfail : ∀ (e : IoError) (s : Held), s.fd = some fd → s.maps = buffers →
        s.streaming = false → ownership.Secures
          (do MmapStream.drop ⟨fd, buffers, false⟩; throw (.failed e) : Io MmapStream)
          (fun r s => (∀ stream, r = .ok stream → stream.fd = fd ∧ Runs stream s) ∧
            ∀ e, r = .error e → e ≠ .running ∧ Opened fd s) s := by
      intro e s hfd hmaps hoff
      have hstreams : Streams ⟨fd, buffers, false⟩ s := ⟨hfd, hmaps, hoff⟩
      refine Monitor.Secures.bind ((drop_secures hstreams).mono ?_)
      rintro _ s ⟨rfl, hopened⟩
      refine ⟨fun _ _ => Monitor.secures_throw ⟨nofun, ?_⟩, nofun⟩
      rintro _ ⟨⟩
      exact ⟨nofun, hopened⟩
    cases outcome with
    | error e => exact hfail e s hfd hmaps hoff
    | ok =>
      refine Monitor.secures_ask_bind ⟨hfd, hoff, hfull rfl⟩ (fun on a _ ha => ?_)
        fun _ _ _ => nofun
      obtain rfl := Except.ok.inj ha
      cases on with
      | error e => exact hfail e s hfd hmaps hoff
      | ok =>
        refine Monitor.secures_pure ⟨?_, nofun⟩
        rintro _ ⟨⟩
        exact ⟨rfl, ⟨hfd, hmaps, rfl⟩, rfl, fun _ => hfull rfl, (hfull rfl).subset⟩
  · obtain ⟨e, -, rfl⟩ := failing_eq_error.1 he
    refine ⟨nofun, ?_⟩
    rintro _ ⟨⟩
    exact ⟨nofun, hfd, hmaps, hoff⟩

/-! ## Capturing -/

theorem pollRound_secures {fd : ℕ} {deadline : Option ℕ} (hfd : s.fd = some fd)
    (hon : s.streaming = true) :
    ownership.Secures (pollRound fd deadline) (fun _ s' => s' = s) s := by
  have hpoll : ∀ timeout, ownership.Secures (ask (.poll fd timeout) judgePoll)
      (fun _ s' => s' = s) s := fun timeout => Monitor.secures_ask ⟨hfd, hon⟩ fun _ _ => rfl
  unfold pollRound pollTimeout
  cases deadline with
  | none => exact hpoll (-1)
  | some deadline =>
    refine Monitor.Secures.bind (Monitor.secures_ask_bind trivial (fun t a _ ha => ?_)
      fun _ _ _ => nofun)
    exact Monitor.secures_pure ⟨fun timeout _ => hpoll timeout, nofun⟩

theorem pollReadable_secures {fd : ℕ} {timeoutMs : ℤ} {rounds : ℕ} (hfd : s.fd = some fd)
    (hon : s.streaming = true) :
    ownership.Secures (pollReadable fd timeoutMs rounds) (fun _ s' => s' = s) s := by
  have hloop : ∀ deadline, ownership.Secures
      (loop (fun () => pollRound fd deadline) rounds ()) (fun _ s' => s' = s) s := by
    intro deadline
    refine Monitor.secures_loop (I := fun _ s' => s' = s) (fun _ _ h => h) ?_ rounds rfl
    rintro _ s' rfl
    exact (pollRound_secures hfd hon).mono fun _ _ h =>
      ⟨fun _ _ => h, fun _ _ => h, fun _ _ => h⟩
  unfold pollReadable
  split_ifs
  · refine Monitor.secures_ask_bind trivial (fun t a _ ha => ?_) fun _ _ _ => nofun
    exact hloop _
  · exact hloop _

theorem copyFrame_secures {b : Mapping} {bytesused expectedLen : ℕ} (hon : s.streaming = true)
    {index : ℕ} (hb : s.maps[index]? = some b) (hmine : index ∉ s.queued) :
    ownership.Secures (MmapStream.copyFrame b bytesused expectedLen)
      (fun r s' => (∃ a, r = .ok a) ∧ s' = s) s := by
  unfold MmapStream.copyFrame
  split_ifs with hlen
  · refine Monitor.secures_ask_bind ⟨hon, index, b, hb, rfl, hlen.2, hmine⟩
      (fun out a _ ha => ?_) fun _ _ _ => nofun
    exact Monitor.secures_pure ⟨⟨_, rfl⟩, rfl⟩
  · exact Monitor.secures_pure ⟨⟨_, rfl⟩, rfl⟩

/-- **A capture gives the buffer back** before anything else is done with the stream. -/
theorem dequeue_secures {stream : MmapStream} {timeoutMs : ℤ} {expectedLen rounds : ℕ}
    (h : Runs stream s) :
    ownership.Secures (stream.dequeue timeoutMs expectedLen rounds) (fun _ s => Runs stream s)
      s := by
  obtain ⟨⟨hfd, hmaps, hstreaming⟩, hon, hfull, hbounded⟩ := id h
  have hs : s.streaming = true := hstreaming.trans hon
  unfold MmapStream.dequeue
  refine Monitor.Secures.bind ((pollReadable_secures hfd hs).mono ?_)
  rintro r s rfl
  refine ⟨fun ready _ => ?_, fun _ _ => h⟩
  cases ready with
  | false => exact Monitor.secures_pure h
  | true =>
    refine Monitor.secures_ask_bind ⟨hfd, hs, hfull⟩ (fun answer found ht ha => ?_)
      fun answer e _ he => ?_
    · obtain rfl := failing_eq_ok.1 ha
      obtain ⟨index, bytesused⟩ := found
      have ht : index < s.maps.length → index ∈ s.queued := ht
      dsimp only
      by_cases hindex : index < s.maps.length
      · have hget : stream.buffers[index]? = some s.maps[index] := by
          rw [← hmaps]
          exact List.getElem?_eq_getElem hindex
        have hmine : index ∉ s.queued.erase index := Finset.notMem_erase _ _
        have hnext : ownership.next s ⟨.dqbuf stream.fd, .ok (index, bytesused)⟩ =
            { s with queued := s.queued.erase index } := if_pos hindex
        rw [hget, hnext]
        dsimp only
        refine Monitor.Secures.bind ((copyFrame_secures (s := { s with queued := s.queued.erase index })
          hs (List.getElem?_eq_getElem hindex) hmine).mono ?_)
        rintro _ s' ⟨⟨frame, rfl⟩, rfl⟩
        refine ⟨?_, nofun⟩
        rintro _ ⟨⟩
        have hok : Runs stream { s with queued := insert index (s.queued.erase index) } := by
          rw [Finset.insert_erase (ht hindex)]
          exact h
        refine Monitor.secures_ask_bind ⟨hfd, hindex, hmine⟩ (fun requeued u _ hu => ?_)
          fun requeued e _ he => ?_
        · obtain rfl := failing_eq_ok.1 hu
          cases frame with
          | none => exact Monitor.secures_throw hok
          | some out => exact Monitor.secures_pure hok
        · obtain ⟨e, rfl, -⟩ := failing_eq_error.1 he
          exact ⟨⟨hfd, hmaps, hstreaming⟩, hon, nofun, (Finset.erase_subset _ _).trans hbounded⟩
      · have hget : stream.buffers[index]? = none := by
          rw [← hmaps]
          exact List.getElem?_eq_none (not_lt.1 hindex)
        have hnext : ownership.next s ⟨.dqbuf stream.fd, .ok (index, bytesused)⟩ =
            { s with lost := true } := if_neg hindex
        rw [hget, hnext]
        exact Monitor.secures_throw ⟨⟨hfd, hmaps, hstreaming⟩, hon, nofun, hbounded⟩
    · obtain ⟨e, rfl, -⟩ := failing_eq_error.1 he
      exact h

theorem capture_secures {dev : V4l2IrDevice} {deadlineMs rounds : ℕ} (h : Runs dev.stream s) :
    ownership.Secures (dev.capture (F := F) deadlineMs rounds) (fun _ s => Runs dev.stream s) s := by
  unfold V4l2IrDevice.capture cameraContext
  refine Monitor.Secures.bind (Monitor.Secures.rethrow ((dequeue_secures h).mono ?_))
  intro r s h
  refine ⟨fun frame _ => ⟨fun frame _ => ?_, fun _ _ => h⟩, fun _ _ => ⟨nofun, fun _ _ => h⟩,
    fun _ => ⟨nofun, fun _ _ => h⟩⟩
  cases frame with
  | none => exact Monitor.secures_throw h
  | some buf => exact Monitor.secures_ofResult h

theorem serve_secures {dev : V4l2IrDevice} {user : Frames F → Option ℕ} {rounds captures : ℕ}
    {frames : Frames F} (h : Runs dev.stream s) :
    ownership.Secures (dev.serve user rounds captures frames)
      (fun r s => Runs dev.stream s ∧ ∀ e, r = .error e → e = .running) s := by
  induction captures generalizing s frames with
  | zero => exact Monitor.secures_pure ⟨h, nofun⟩
  | succ n ih =>
    unfold V4l2IrDevice.serve
    cases user frames with
    | none => exact Monitor.secures_pure ⟨h, nofun⟩
    | some deadlineMs =>
      refine Monitor.Secures.bind (Monitor.Secures.settle ((capture_secures h).mono ?_))
      intro r s h
      refine ⟨fun frame _ => ih h, fun e he => ⟨h, ?_⟩⟩
      rintro _ ⟨⟩
      obtain (_ | _) | _ := r
      · cases he
      · exact (Except.error.inj he).symm
      · cases he

/-! ## A lifetime -/

/-- With nothing open, a device is opened, or nothing is left open. -/
def Acquires (r : Except (Stop (MugError F)) V4l2IrDevice) (s : Held) : Prop :=
  (∀ dev, r = .ok dev → Runs dev.stream s) ∧ ∀ e, r = .error (.failed e) → s = .nothing

theorem close_opened {fd : ℕ} {s : Held} (h : Opened fd s) (x : Unit) :
    ownership.next s ⟨.close fd, x⟩ = .nothing := by
  obtain ⟨hfd, hmaps, hoff⟩ := h
  change (⟨none, s.maps, ∅, s.streaming, false⟩ : Held) = _
  rw [hmaps, hoff]
  rfl

theorem openFile_secures {path : OsPath} :
    ownership.Secures (V4l2IrDevice.openFile (F := F) path)
      (fun r s => (∀ fd, r = .ok fd → s = { Held.nothing with fd := some fd }) ∧
        ∀ e, r = .error e → e ≠ .running ∧ s = .nothing) .nothing := by
  unfold V4l2IrDevice.openFile cameraContext
  refine Monitor.Secures.rethrow (Monitor.secures_ask rfl fun answer _ => ?_)
  cases answer with
  | ok fd =>
    refine ⟨?_, nofun, nofun⟩
    rintro _ ⟨⟩
    refine ⟨?_, nofun⟩
    rintro _ ⟨⟩
    rfl
  | error e =>
    refine ⟨nofun, ?_, nofun⟩
    rintro _ ⟨⟩
    refine ⟨nofun, ?_⟩
    rintro _ ⟨⟩
    exact ⟨nofun, rfl⟩

theorem setGreyFormat_secures {fd width height : ℕ} (hfd : s.fd = some fd)
    (hoff : s.streaming = false) : ownership.Secures (setGreyFormat fd width height)
      (fun r s' => r ≠ .error .running ∧ s' = s) s := by
  unfold setGreyFormat
  refine Monitor.secures_ask_bind ⟨hfd, hoff⟩ (fun answer granted _ ha => ?_)
    fun answer e _ he => ?_
  · obtain ⟨w, h, pixelformat⟩ := granted
    dsimp only
    split_ifs
    · exact Monitor.secures_throw ⟨nofun, rfl⟩
    · exact Monitor.secures_pure ⟨nofun, rfl⟩
  · obtain ⟨e, -, rfl⟩ := failing_eq_error.1 he
    exact ⟨nofun, rfl⟩

theorem configure_secures {fd width height : ℕ} {path : OsPath} (h : Opened fd s)
    (hqueued : s.queued = ∅) :
    ownership.Secures (V4l2IrDevice.configure (F := F) fd path width height)
      (fun r s => (∀ stream, r = .ok stream → stream.fd = fd ∧ Runs stream s) ∧
        ∀ e, r = .error e → e ≠ .running ∧ Opened fd s) s := by
  unfold V4l2IrDevice.configure cameraContext
  refine Monitor.Secures.bind (Monitor.Secures.rethrow
    ((setGreyFormat_secures h.fd h.off).mono ?_))
  rintro r s ⟨hr, rfl⟩
  refine ⟨fun granted _ => ⟨fun granted _ => ?_, nofun⟩, fun e _ => ⟨nofun, ?_⟩,
    fun hcut => absurd hcut hr⟩
  · obtain ⟨gw, gh⟩ := granted
    dsimp only
    split_ifs
    · refine Monitor.secures_throw ⟨nofun, ?_⟩
      rintro _ ⟨⟩
      exact ⟨nofun, h⟩
    · refine Monitor.Secures.rethrow ((start_secures h hqueued).mono ?_)
      rintro r s ⟨hok, herror⟩
      refine ⟨fun stream hr => ⟨fun stream' hs => ?_, nofun⟩, fun e hr => ⟨nofun, ?_⟩,
        fun hr => absurd rfl (herror _ hr).1⟩
      · obtain rfl := Except.ok.inj hs
        exact hok stream hr
      · rintro _ ⟨⟩
        exact ⟨nofun, (herror _ hr).2⟩
  · rintro _ ⟨⟩
    refine ⟨nofun, ?_⟩
    rintro _ ⟨⟩
    exact ⟨nofun, h⟩

theorem openDevice_secures {path : OsPath} {width height : ℕ} :
    ownership.Secures (V4l2IrDevice.openDevice (F := F) path width height) Acquires .nothing := by
  unfold V4l2IrDevice.openDevice
  refine Monitor.Secures.bind (openFile_secures.mono ?_)
  rintro r s ⟨hok, herror⟩
  refine ⟨fun fd hr => ?_, fun e hr => ⟨nofun, fun _ _ => (herror e hr).2⟩⟩
  obtain rfl := hok fd hr
  have hopened : Opened fd { Held.nothing with fd := some fd } := ⟨rfl, rfl, rfl⟩
  refine Monitor.Secures.bind (Monitor.Secures.settle
    ((configure_secures hopened rfl).mono ?_))
  rintro ((e | _) | stream) s ⟨hok, herror⟩
  · have hopened := (herror _ rfl).2
    refine ⟨?_, nofun⟩
    rintro _ ⟨⟩
    refine Monitor.secures_ask_bind ⟨hopened.fd, hopened.maps, hopened.off⟩ (fun x _ _ _ => ?_)
      fun _ _ _ => nofun
    exact Monitor.secures_throw ⟨nofun, fun _ _ => close_opened hopened x⟩
  · exact absurd rfl (herror _ rfl).1
  · refine ⟨?_, nofun⟩
    rintro _ ⟨⟩
    refine Monitor.secures_pure ⟨?_, nofun⟩
    rintro _ ⟨⟩
    exact (hok stream rfl).2

theorem enumCapturePixelformats_secures {fd rounds : ℕ} (h : Opened fd s) :
    ownership.Secures (enumCapturePixelformats fd rounds) (fun _ s' => s' = s) s := by
  refine Monitor.secures_loop (I := fun _ s' => s' = s) (fun _ _ h => h) ?_ rounds rfl
  rintro formats s' rfl
  unfold enumRound
  refine Monitor.secures_ask_bind ⟨h.fd, h.off⟩ (fun answer a _ ha => ?_) fun _ _ _ => nofun
  obtain rfl := Except.ok.inj ha
  cases answer with
  | ok pixelformat => exact Monitor.secures_pure ⟨fun _ _ => rfl, fun _ _ => rfl, fun _ _ => rfl⟩
  | error e =>
    dsimp only
    split_ifs
    · exact Monitor.secures_pure ⟨fun _ _ => rfl, fun _ _ => rfl, fun _ _ => rfl⟩
    · exact Monitor.secures_throw ⟨fun _ _ => rfl, fun _ _ => rfl, fun _ _ => rfl⟩

/-- A node that is looked at is closed again. -/
theorem nodeOffersGrey_secures {path : OsPath} {rounds : ℕ} :
    ownership.Secures (nodeOffersGrey (F := F) path rounds)
      (fun r s => r ≠ .error .running → s = .nothing) .nothing := by
  unfold nodeOffersGrey
  refine Monitor.Secures.bind (openFile_secures.mono ?_)
  rintro r s ⟨hok, herror⟩
  refine ⟨fun fd hr => ?_, fun e hr _ => (herror e hr).2⟩
  obtain rfl := hok fd hr
  have hopened : Opened fd { Held.nothing with fd := some fd } := ⟨rfl, rfl, rfl⟩
  refine Monitor.Secures.bind (Monitor.Secures.ensuring (Monitor.Secures.rethrow
    ((enumCapturePixelformats_secures hopened).mono ?_)))
  rintro r s rfl
  have hclosed : ∀ r : Except (Stop (MugError F)) (List ℕ), r ≠ .error .running →
      ownership.allows { Held.nothing with fd := some fd } (.close fd) ∧ ∀ y,
        ownership.trusts { Held.nothing with fd := some fd } ⟨.close fd, y⟩ →
        (∀ formats, r = .ok formats → ownership.Secures
          (pure (formats.contains v4l2PixFmtGrey) : DeviceIo F Bool)
          (fun r s => r ≠ .error .running → s = .nothing)
          (ownership.next { Held.nothing with fd := some fd } ⟨.close fd, y⟩)) ∧
        ∀ e, r = .error e → Except.error (α := Bool) e ≠ .error .running →
          ownership.next { Held.nothing with fd := some fd } ⟨.close fd, y⟩ = .nothing :=
    fun r _ => ⟨⟨rfl, rfl, rfl⟩, fun y _ => ⟨fun _ _ => Monitor.secures_pure fun _ => rfl,
      fun _ _ _ => rfl⟩⟩
  refine ⟨fun formats _ => ⟨nofun, hclosed _⟩, fun e _ => ⟨nofun, hclosed _⟩,
    fun _ => ⟨fun _ => ⟨nofun, ?_⟩, fun h => absurd rfl h⟩⟩
  rintro _ ⟨⟩ hne
  exact absurd rfl hne

theorem probeAll_secures {rounds : ℕ} {entries : List (Except IoError OsPath)}
    {lastErr : Option (MugError F)} :
    ownership.Secures (probeAll rounds entries lastErr)
      (fun r s => r ≠ .error .running → s = .nothing) .nothing := by
  induction entries generalizing lastErr with
  | nil => exact Monitor.secures_throw fun _ => rfl
  | cons entry entries ih =>
    cases entry with
    | error e => exact Monitor.secures_throw fun _ => rfl
    | ok fileName =>
      unfold probeAll
      split_ifs
      · refine Monitor.Secures.bind (Monitor.Secures.settle
          (nodeOffersGrey_secures.mono ?_))
        rintro ((e | _) | grey) s hs
        · obtain rfl := hs nofun
          refine ⟨?_, nofun⟩
          rintro _ ⟨⟩
          exact ih
        · refine ⟨nofun, ?_⟩
          rintro _ ⟨⟩ hne
          exact absurd rfl hne
        · obtain rfl := hs nofun
          refine ⟨?_, nofun⟩
          rintro _ ⟨⟩
          cases grey with
          | true => exact Monitor.secures_pure fun _ => rfl
          | false => exact ih
      · exact ih

theorem openAt_secures {node : Option OsPath} {rounds : ℕ} :
    ownership.Secures (V4l2IrDevice.openAt (F := F) node rounds) Acquires .nothing := by
  unfold V4l2IrDevice.openAt
  cases node with
  | some path => exact openDevice_secures
  | none =>
    unfold V4l2IrDevice.openBrio findBrioIrNode cameraContext
    have hprobe : ∀ entries, ownership.Secures (probeAll (F := F) rounds entries none)
        (fun r s => (∀ node, r = .ok node → ownership.Secures
            (V4l2IrDevice.openDevice (F := F) node brioIrWidth brioIrHeight) Acquires s) ∧
          ∀ e, r = .error e → Acquires (F := F) (.error e) s) .nothing := by
      intro entries
      refine probeAll_secures.mono fun r s hs => ⟨fun node hr => ?_, fun e hr => ⟨nofun, ?_⟩⟩
      · obtain rfl := hs (hr ▸ nofun)
        exact openDevice_secures
      · rintro _ ⟨⟩
        exact hs (hr ▸ nofun)
    refine Monitor.Secures.bind (Monitor.Secures.bind (Monitor.Secures.rethrow
      (Monitor.secures_ask trivial fun answer _ => ?_)))
    cases answer with
    | ok entries =>
      refine ⟨?_, nofun, nofun⟩
      rintro _ ⟨⟩
      exact ⟨fun entries _ => hprobe entries, nofun⟩
    | error e =>
      refine ⟨nofun, ?_, nofun⟩
      rintro _ ⟨⟩
      refine ⟨nofun, ?_⟩
      rintro _ ⟨⟩
      refine ⟨nofun, ?_⟩
      rintro _ ⟨⟩
      exact ⟨nofun, fun _ _ => rfl⟩

/-- **The camera is used as it has to be**, from when it is looked for and opened until it is
dropped, whatever the user asks of it: no buffer is read beyond its mapping or while it is the
driver's, none is unmapped twice or while the stream is on, and in the end nothing is left open,
mapped or streaming. -/
theorem lifetime_accounted (node : Option OsPath) (user : Frames F → Option ℕ)
    (captures rounds : ℕ) :
    ownership.Secures (lifetime node user captures rounds)
      (fun r s => r ≠ .error .running → s = .nothing) .nothing := by
  unfold lifetime
  refine Monitor.Secures.bind (openAt_secures.mono ?_)
  rintro r s ⟨hok, herror⟩
  refine ⟨fun dev hr => ?_, fun e hr hne => ?_⟩
  · refine Monitor.Secures.bind ((serve_secures (hok dev hr)).mono ?_)
    rintro r s ⟨hruns, hcut⟩
    refine ⟨fun frames _ => ?_, fun e he hne => absurd (congrArg Except.error (hcut e he)) hne⟩
    refine Monitor.Secures.bind (Monitor.Secures.bind
      ((drop_secures hruns.toStreams).mono ?_))
    rintro _ s ⟨rfl, hopened⟩
    refine ⟨fun _ _ => ?_, nofun⟩
    refine Monitor.secures_ask ⟨hopened.fd, hopened.maps, hopened.off⟩ fun x _ => ⟨?_, nofun⟩
    exact fun _ _ => Monitor.secures_pure fun _ => close_opened hopened x
  · cases e with
    | failed e => exact herror e hr
    | running => exact absurd rfl hne

/-- A camera that is opened and dropped. -/
def sampleLifetime : List Event :=
  [⟨.openFile [], .ok 3⟩, ⟨.sFmt 3 340 340 v4l2PixFmtGrey, .ok (340, 340, v4l2PixFmtGrey)⟩,
    ⟨.reqbufs 3 4, .ok 1⟩, ⟨.querybuf 3 0, .ok (115600, 0)⟩, ⟨.mmap 3 115600 0, .ok 4096⟩,
    ⟨.qbuf 3 0, .ok ()⟩, ⟨.streamon 3, .ok ()⟩, ⟨.streamoff 3, .ok ()⟩,
    ⟨.munmap ⟨4096, 115600⟩, ()⟩, ⟨.close 3, ()⟩]

example : Ends (lifetime (F := ℤ) (some []) (fun _ => none) 0 0) (.ok []) sampleLifetime ∧
    ownership.Trusted .nothing sampleLifetime :=
  ⟨.op _ (.op _ (.op _ (.op _ (.op _ (.op _ (.op _ (.op _ (.op _ (.op _ (.pure _)))))))))),
    trivial, trivial, trivial, trivial, trivial, trivial, trivial, trivial, trivial, trivial, trivial⟩

/-! ## One capture -/

/-- The first and the last time the clock was looked at. -/
abbrev Looked := Option (ℕ × ℕ)

/-- A wait does not outlast the deadline, which is so many milliseconds after the first look. -/
def Looked.Allows (deadlineMs : ℕ) (s : Looked) : Op → Prop
  | .poll _ timeout => ∃ start last, s = some (start, last) ∧ 0 ≤ timeout ∧
      (timeout = 0 ∨ last + timeout.toNat * 1000000 ≤ start + deadlineMs * 1000000)
  | _ => True

def Looked.next (s : Looked) : Event → Looked
  | ⟨.now, t⟩ => some (s.elim t Prod.fst, t)
  | _ => s

def punctuality (deadlineMs : ℕ) : Monitor Op.Res Looked where
  allows := Looked.Allows deadlineMs
  trusts _ _ := True
  next := Looked.next

/-- The frame is what was copied from a buffer that the driver had filled up to its size. -/
def Copied (dev : V4l2IrDevice) (frame : IrFrame) (l : List Event) : Prop :=
  ∃ l₁ index b, ∃ out : {data : List UInt8 // data.length = dev.width * dev.height},
    l = l₁ ++ [⟨.dqbuf dev.stream.fd, .ok (index, dev.width * dev.height)⟩,
      ⟨.copy b.ptr (dev.width * dev.height), out⟩, ⟨.qbuf dev.stream.fd index, .ok ()⟩] ∧
    dev.stream.buffers[index]? = some b ∧ dev.width * dev.height ≤ b.length ∧ frame.data = out.1

variable {looked : Looked} {start deadlineMs : ℕ}

theorem pollRound_punctual {fd d : ℕ} (hd : d ≤ start + deadlineMs * 1000000) {last : ℕ} :
    (punctuality deadlineMs).Secures (pollRound fd (some d))
      (fun _ s => ∃ last, s = some (start, last)) (some (start, last)) := by
  unfold pollRound pollTimeout
  refine Monitor.Secures.bind (Monitor.secures_ask_bind trivial (fun (t : ℕ) a _ ha => ?_)
    fun _ _ _ => nofun)
  obtain rfl := Except.ok.inj ha
  refine Monitor.secures_pure ⟨?_, nofun⟩
  rintro _ ⟨⟩
  have hle : min ((d - t) / 1000000) i32Max = 0 ∨
      t + min ((d - t) / 1000000) i32Max * 1000000 ≤ start + deadlineMs * 1000000 := by
    have hmin := Nat.min_le_left ((d - t) / 1000000) i32Max
    generalize min ((d - t) / 1000000) i32Max = timeout at hmin ⊢
    omega
  refine Monitor.secures_ask ⟨start, t, rfl, Int.natCast_nonneg _, ?_⟩ fun _ _ => ⟨t, rfl⟩
  rw [Int.toNat_natCast, Int.natCast_eq_zero]
  exact hle

theorem pollReadable_punctual {fd rounds : ℕ} :
    (punctuality deadlineMs).Secures (pollReadable fd (min deadlineMs i32Max : ℕ) rounds)
      (fun _ _ => True) none := by
  unfold pollReadable
  rw [if_pos (Int.natCast_nonneg _)]
  refine Monitor.secures_ask_bind trivial (fun start a _ ha => ?_) fun _ _ _ => nofun
  obtain rfl := Except.ok.inj ha
  have hd : start + (min deadlineMs i32Max : ℕ) * 1000000 ≤ start + deadlineMs * 1000000 :=
    Nat.add_le_add_left (Nat.mul_le_mul_right _ (Nat.min_le_left _ _)) _
  refine Monitor.secures_loop (I := fun _ s => ∃ last, s = some (start, last))
    (fun _ _ _ => trivial) ?_ rounds ⟨start, rfl⟩
  rintro _ _ ⟨last, rfl⟩
  rw [Int.toNat_natCast]
  exact (pollRound_punctual hd).mono fun _ _ h => ⟨fun _ _ => h, fun _ _ => trivial,
    fun _ _ => trivial⟩

/-- Nothing is waited for after the poll. -/
theorem dequeue_punctual {stream : MmapStream} {expectedLen rounds : ℕ} :
    (punctuality deadlineMs).Secures
      (stream.dequeue (min deadlineMs i32Max : ℕ) expectedLen rounds) (fun _ _ => True) none := by
  unfold MmapStream.dequeue MmapStream.copyFrame
  refine Monitor.Secures.bind (pollReadable_punctual.mono fun r s _ => ⟨fun ready _ => ?_,
    fun _ _ => trivial⟩)
  cases ready with
  | false => exact Monitor.secures_pure trivial
  | true =>
    refine Monitor.secures_ask_bind trivial (fun answer found _ ha => ?_) fun _ _ _ _ => trivial
    dsimp only
    cases stream.buffers[found.1]? with
    | none => exact Monitor.secures_throw trivial
    | some b =>
      have hrest : ∀ s frame, (punctuality deadlineMs).Secures (do
          ask (.qbuf stream.fd found.1) failing
          match frame with
          | some out => pure (some out)
          | none => throw (Stop.failed (MmapStream.sizeMismatch found.2 expectedLen b.length)) :
            Io (Option (List UInt8))) (fun _ _ => True) s := by
        intro s frame
        refine Monitor.secures_ask_bind trivial (fun _ _ _ _ => ?_) fun _ _ _ _ => trivial
        cases frame with
        | none => exact Monitor.secures_throw trivial
        | some out => exact Monitor.secures_pure trivial
      refine Monitor.Secures.bind ?_
      split_ifs
      · refine Monitor.secures_ask_bind trivial (fun _ _ _ _ => ?_) fun _ _ _ => nofun
        exact Monitor.secures_pure ⟨fun frame _ => hrest _ frame, nofun⟩
      · exact Monitor.secures_pure ⟨fun frame _ => hrest _ frame, nofun⟩

/-- The calls of a dequeue that returns a frame. -/
theorem dequeue_some {stream : MmapStream} {timeoutMs : ℤ} {expectedLen rounds : ℕ}
    {buf : List UInt8} {l : List Event}
    (h : Ends (stream.dequeue timeoutMs expectedLen rounds) (.ok (some buf)) l) :
    ∃ l₁ index b, ∃ out : {data : List UInt8 // data.length = expectedLen},
      l = l₁ ++ [⟨.dqbuf stream.fd, .ok (index, expectedLen)⟩, ⟨.copy b.ptr expectedLen, out⟩,
        ⟨.qbuf stream.fd index, .ok ()⟩] ∧
      stream.buffers[index]? = some b ∧ expectedLen ≤ b.length ∧ buf = out.1 := by
  unfold MmapStream.dequeue MmapStream.copyFrame at h
  obtain ⟨_, ⟨⟩, -⟩ | ⟨ready, l₁, l, rfl, -, h⟩ := ends_bind_iff.1 h
  cases ready with
  | false =>
    obtain ⟨hr, -⟩ := ends_pure_iff.1 h
    cases hr
  | true =>
    obtain ⟨answer, l, rfl, ⟨_, -, ⟨⟩, -⟩ | ⟨⟨index, bytesused⟩, ha, hgot⟩⟩ := ends_ask_bind_iff.1 h
    obtain rfl := failing_eq_ok.1 ha
    dsimp only at hgot
    cases hb : stream.buffers[index]? with
    | none =>
      rw [hb] at hgot
      obtain ⟨⟨⟩, -⟩ := ends_throw_iff.1 hgot
    | some b =>
      rw [hb] at hgot
      obtain ⟨_, ⟨⟩, -⟩ | ⟨frame, l₂, l₃, rfl, hcopy, hback⟩ := ends_bind_iff.1 hgot
      obtain ⟨requeued, l₃, rfl, ⟨_, -, ⟨⟩, -⟩ | ⟨⟨⟩, hu, hret⟩⟩ := ends_ask_bind_iff.1 hback
      obtain rfl := failing_eq_ok.1 hu
      split_ifs at hcopy with hlen
      · obtain ⟨out, l₂, rfl, ⟨_, ⟨⟩, -⟩ | ⟨_, ⟨⟩, hout⟩⟩ := ends_ask_bind_iff.1 hcopy
        obtain ⟨hframe, rfl⟩ := ends_pure_iff.1 hout
        obtain rfl := Except.ok.inj hframe
        obtain ⟨hbuf, rfl⟩ := ends_pure_iff.1 hret
        obtain ⟨rfl, hle⟩ := hlen
        exact ⟨l₁, index, b, out, rfl, hb, hle, Option.some.inj (Except.ok.inj hbuf)⟩
      · obtain ⟨hframe, rfl⟩ := ends_pure_iff.1 hcopy
        obtain rfl := Except.ok.inj hframe
        obtain ⟨⟨⟩, -⟩ := ends_throw_iff.1 hret

/-- **A capture is bounded and exact.** Whatever the signals and the driver do, no wait of it outlasts
its deadline. A frame that it delivers was copied as a whole from a buffer that the driver had filled
up to the size of a frame, before the buffer was given back; it is never padded. -/
theorem capture_exact (dev : V4l2IrDevice) (deadlineMs rounds : ℕ)
    {r : Except (Stop (MugError F)) IrFrame} {l : List Event}
    (h : Ends (dev.capture deadlineMs rounds) r l) :
    (punctuality deadlineMs).Guarded none l ∧
      ∀ frame, r = .ok frame → (frame.width, frame.height) = (dev.width, dev.height) ∧
        Copied dev frame l := by
  unfold V4l2IrDevice.capture cameraContext at h
  constructor
  · have hwait : (punctuality deadlineMs).Secures (dev.capture (F := F) deadlineMs rounds)
        (fun _ _ => True) none := by
      unfold V4l2IrDevice.capture cameraContext
      refine Monitor.Secures.bind (Monitor.Secures.rethrow (dequeue_punctual.mono ?_))
      refine fun _ s _ => ⟨fun frame _ => ⟨fun frame _ => ?_, fun _ _ => trivial⟩,
        fun _ _ => ⟨nofun, fun _ _ => trivial⟩, fun _ => ⟨nofun, fun _ _ => trivial⟩⟩
      cases frame with
      | none => exact Monitor.secures_throw trivial
      | some buf => exact Monitor.secures_ofResult trivial
    exact (hwait r l h).1
  · rintro frame rfl
    obtain ⟨_, ⟨⟩, -⟩ | ⟨got, l₁, l₂, rfl, hgot, hnew⟩ := ends_bind_iff.1 h
    replace hgot := ends_rethrow_ok_iff.1 hgot
    cases got with
    | none => obtain ⟨⟨⟩, -⟩ := ends_throw_iff.1 hnew
    | some buf =>
      obtain ⟨hframe, rfl⟩ := ends_ofResult_iff.1 hnew
      obtain ⟨hsize, hdata⟩ := IrFrame.new_ok (mapError_eq_ok.1 hframe.symm)
      obtain ⟨l₁, index, b, out, rfl, hb, hle, rfl⟩ := dequeue_some hgot
      rw [List.append_nil]
      exact ⟨hsize, l₁, index, b, out, rfl, hb, hle, hdata⟩

/-! ## A camera with one buffer -/

def sampleDevice : V4l2IrDevice := ⟨⟨3, [⟨4096, 16⟩], true⟩, 2, 2⟩

/-- A signal comes while the frame is waited for. -/
def sampleCapture : List Event :=
  [⟨.now, 0⟩, ⟨.now, 1000000⟩, ⟨.poll 3 9, .error ⟨some eintr, "Interrupted system call"⟩⟩,
    ⟨.now, 4000000⟩, ⟨.poll 3 6, .ok (some pollin)⟩, ⟨.dqbuf 3, .ok (0, 4)⟩,
    ⟨.copy 4096 4, ⟨[1, 2, 3, 4], rfl⟩⟩, ⟨.qbuf 3 0, .ok ()⟩]

theorem ends_sampleCapture : Ends (sampleDevice.capture (F := ℤ) 10 2)
    (.ok ⟨2, 2, [1, 2, 3, 4], rfl⟩) sampleCapture :=
  .op _ (.op _ (.op _ (.op _ (.op _ (.op _ (.op _ (.op _ (.pure _))))))))

theorem capture_exact_sample : (punctuality 10).Guarded none sampleCapture ∧
    Copied sampleDevice ⟨2, 2, [1, 2, 3, 4], rfl⟩ sampleCapture :=
  have h := capture_exact sampleDevice 10 2 ends_sampleCapture
  ⟨h.1, (h.2 _ rfl).2⟩

end Sys

end Mug

end Tess
