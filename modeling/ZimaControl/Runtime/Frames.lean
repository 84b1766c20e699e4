import Mathlib.Data.List.Basic
import ZimaControl.Runtime.Client

/-!
# Frames of a stream

`StreamFrameDecoder` cuts the bytes of a socket into frames. Which frames a stream has is a fact about
its bytes (`Splits`): frames one after another, up to bytes that are no frame yet or that begin with a
header over the limit. The decoder returns those frames whatever the chunks are, until a header over
the limit makes `push` throw. The frames that the same call had already taken are then lost, and the
bytes that arrive later are read as a stream of its own.

The client reads the frame of a response without the decoder, and the chunks do not matter.
-/

namespace ZimaControl

open List

/-! ## The decoder -/

/-- The bytes of a frame, header and payload. -/
abbrev Frame := List Byte

/-- The loop of `push`: the frames it takes from the buffer and what it leaves there. -/
def extractFrames (maxFrameBytes : ℕ) (buffer : List Byte) :
    Except AdapterError (List Frame × List Byte) :=
  match readUInt32BE buffer with
  | none => .ok ([], buffer)
  | some payloadLength =>
    if payloadLength > maxFrameBytes then
      .error (malformedRequest (js "Frame declared payload length of " ++ decimal payloadLength ++
        js " bytes exceeding maximum limit of " ++ decimal maxFrameBytes ++ js " bytes"))
    else
      let totalFrameBytes := frameHeaderBytes + payloadLength
      if buffer.length < totalFrameBytes then .ok ([], buffer)
      else (extractFrames maxFrameBytes (buffer.drop totalFrameBytes)).map fun taken =>
        (buffer.take totalFrameBytes :: taken.1, taken.2)
termination_by buffer.length
decreasing_by
  have hheader : 0 < frameHeaderBytes := by decide
  rw [length_drop]
  omega

/-- The state of a `StreamFrameDecoder`. -/
structure StreamFrameDecoder where
  buffer : List Byte := []
  maxFrameBytes : ℕ := maxRequestFrameBytes

/-- What a call of `push` returns or throws. -/
abbrev PushResult := Except AdapterError (List Frame)

namespace StreamFrameDecoder

/-- `push`, with the decoder after it. -/
def push (d : StreamFrameDecoder) (chunk : List Byte) : PushResult × StreamFrameDecoder :=
  if chunk.length = 0 then (.ok [], d)
  else match extractFrames d.maxFrameBytes (d.buffer ++ chunk) with
    | .ok (completeFrames, rest) => (.ok completeFrames, { d with buffer := rest })
    | .error e => (.error e, { d with buffer := [] })

/-- The results of the calls for the chunks of a stream. -/
def pushAll (d : StreamFrameDecoder) : List (List Byte) → List PushResult
  | [] => []
  | chunk :: chunks => (d.push chunk).1 :: (d.push chunk).2.pushAll chunks

end StreamFrameDecoder

/-- The frames that calls return. -/
def delivered (results : List PushResult) : List Frame :=
  results.flatMap fun result => result.toOption.getD []

/-! ## The format -/

section Format

variable (limit : ℕ)

/-- A frame is a header within the limit and as many bytes behind it as it says. -/
def IsFrame (frame : Frame) : Prop :=
  ∃ n ≤ limit, readUInt32BE frame = some n ∧ frame.length = frameHeaderBytes + n

/-- The bytes begin with a header over the limit. -/
abbrev OverLimit (bytes : List Byte) : Prop := ∃ n ∈ readUInt32BE bytes, limit < n

/-- The frames of a stream, in front of the first header over the limit if there is one. -/
structure Splits (stream : List Byte) (frames : List Frame) (rest : List Byte) : Prop where
  bytes : stream = frames.flatten ++ rest
  frames : ∀ frame ∈ frames, IsFrame limit frame
  ends : ∀ n, readUInt32BE rest = some n → limit < n ∨ rest.length < frameHeaderBytes + n

/-- No chunk completes a frame, where the bytes behind a chunk that completes a header over the limit
are a stream of their own. -/
def Quiet : List Byte → List (List Byte) → Prop
  | _, [] => True
  | pending, chunk :: chunks => ∃ frames rest, Splits limit (pending ++ chunk) frames rest ∧
      if OverLimit limit rest then Quiet [] chunks else frames = [] ∧ Quiet rest chunks

/-- The chunk that completes the first header over the limit completes no frame, and those behind it
are quiet. -/
def Clean : List Byte → List (List Byte) → Prop
  | _, [] => True
  | pending, chunk :: chunks => ∃ frames rest, Splits limit (pending ++ chunk) frames rest ∧
      if OverLimit limit rest then frames = [] ∧ Quiet limit [] chunks else Clean rest chunks

end Format

/-- What the calls for a stream, whose first bytes are buffered, should return: the frames of the
stream until one of them throws, and no frame from then on. -/
def StreamFrameDecoder.Delivers (d : StreamFrameDecoder) (chunks : List (List Byte)) : Prop :=
  let results := d.pushAll chunks
  (∃ rest, Splits d.maxFrameBytes (d.buffer ++ chunks.flatten)
    (delivered (results.takeWhile (·.isOk))) rest) ∧ delivered (results.dropWhile (·.isOk)) = []

variable {limit n : ℕ} {frame rest rest' stream bytes : List Byte} {frames frames' : List Frame}

namespace Splits

/-- A stream does not end where a frame begins. -/
theorem not_frame (h : Splits limit stream [] rest) (hframe : IsFrame limit frame) :
    stream ≠ frame ++ bytes := by
  rintro rfl
  obtain ⟨n, hn, hread, hlength⟩ := hframe
  have hends := h.ends n
  rw [← show _ = rest from h.bytes, length_append] at hends
  have := hends (readUInt32BE_append hread)
  omega

variable (h : Splits limit stream frames rest)
include h

/-- A stream has one list of frames. -/
theorem unique (h' : Splits limit stream frames' rest') : frames = frames' ∧ rest = rest' := by
  induction frames generalizing stream frames' with
  | nil =>
    cases frames' with
    | nil => exact ⟨rfl, h.bytes.symm.trans h'.bytes⟩
    | cons frame' frames' =>
      exact absurd (h'.bytes.trans (append_assoc ..)) (h.not_frame (h'.frames _ mem_cons_self))
  | cons frame frames ih =>
    cases frames' with
    | nil => exact absurd (h.bytes.trans (append_assoc ..)) (h'.not_frame (h.frames _ mem_cons_self))
    | cons frame' frames' =>
      -- Both frames are the first bytes of the stream, as many as its header says.
      obtain ⟨n, -, hread, hlength⟩ := h.frames frame mem_cons_self
      obtain ⟨n', -, hread', hlength'⟩ := h'.frames frame' mem_cons_self
      have hbytes := h.bytes.symm.trans h'.bytes
      simp only [flatten_cons, append_assoc] at hbytes
      have hheader : readUInt32BE (frame ++ (frames.flatten ++ rest)) = some n :=
        readUInt32BE_append hread
      rw [hbytes, readUInt32BE_append hread', Option.some_inj] at hheader
      obtain ⟨rfl, htail⟩ := append_inj hbytes (by omega)
      obtain ⟨rfl, hrest⟩ := ih ⟨rfl, fun f hf => h.frames f (mem_cons_of_mem _ hf), h.ends⟩
        ⟨htail, fun f hf => h'.frames f (mem_cons_of_mem _ hf), h'.ends⟩
      exact ⟨rfl, hrest⟩

theorem exists_iff {P : List Frame → List Byte → Prop} :
    (∃ frames rest, Splits limit stream frames rest ∧ P frames rest) ↔ P frames rest := by
  refine ⟨?_, fun hP => ⟨frames, rest, h, hP⟩⟩
  rintro ⟨frames', rest', h', hP⟩
  obtain ⟨rfl, rfl⟩ := h.unique h'
  exact hP

/-- Behind its first frames a stream goes on with what they leave. -/
theorem append_iff :
    Splits limit (stream ++ bytes) (frames ++ frames') rest' ↔
      Splits limit (rest ++ bytes) frames' rest' := by
  have hcancel : stream ++ bytes = (frames ++ frames').flatten ++ rest' ↔
      rest ++ bytes = frames'.flatten ++ rest' := by
    rw [h.bytes, flatten_append, append_assoc, append_assoc, append_cancel_left_eq]
  refine ⟨fun hs => ⟨hcancel.mp hs.bytes, ?_, hs.ends⟩, fun hs => ⟨hcancel.mpr hs.bytes, ?_, hs.ends⟩⟩
  · exact (forall_mem_append.mp hs.frames).2
  · exact forall_mem_append.mpr ⟨h.frames, hs.frames⟩

end Splits

/-! ## What the decoder returns -/

/-- The loop takes the frames of the buffer, or throws at a header over the limit. -/
theorem extractFrames_spec (limit : ℕ) (buffer : List Byte) :
    ∃ frames rest, Splits limit buffer frames rest ∧
      if OverLimit limit rest then ∃ e, extractFrames limit buffer = .error e
      else extractFrames limit buffer = .ok (frames, rest) := by
  fun_induction extractFrames limit buffer with
  | case1 buffer hread => exact ⟨[], buffer, ⟨rfl, nofun, by simp [hread]⟩, by simp [OverLimit, hread]⟩
  | case2 buffer n hread hover =>
    refine ⟨[], buffer, ⟨rfl, nofun, fun m hm => .inl ?_⟩, by simpa [OverLimit, hread] using hover⟩
    rwa [← Option.some.inj (hread.symm.trans hm)]
  | case3 buffer n hread hfits total hshort =>
    refine ⟨[], buffer, ⟨rfl, nofun, fun m hm => .inr ?_⟩, by simpa [OverLimit, hread] using hfits⟩
    rwa [← Option.some.inj (hread.symm.trans hm)]
  | case4 buffer n hread hfits total hlong ih =>
    obtain ⟨frames, rest, h, hrest⟩ := ih
    have hframe : IsFrame limit (buffer.take total) := by
      refine ⟨n, by omega, ?_, length_take_of_le (by omega)⟩
      match buffer, hread with
      | _ :: _ :: _ :: _ :: _, hread => rwa [show total = n + 4 from Nat.add_comm _ _]
    refine ⟨buffer.take total :: frames, rest,
      ⟨?_, forall_mem_cons.mpr ⟨hframe, h.frames⟩, h.ends⟩, ?_⟩
    · rw [flatten_cons, append_assoc, ← h.bytes, take_append_drop]
    split_ifs at hrest ⊢
    · obtain ⟨e, he⟩ := hrest
      exact ⟨e, by rw [he]; rfl⟩
    · rw [hrest]
      rfl

/-- Bytes that may become a frame, and are none yet. -/
def Waits (limit : ℕ) (bytes : List Byte) : Prop :=
  Splits limit bytes [] bytes ∧ ¬ OverLimit limit bytes

theorem waits_nil : Waits limit [] := ⟨⟨rfl, nofun, nofun⟩, nofun⟩

theorem Splits.waits (h : Splits limit stream frames rest) (hrest : ¬ OverLimit limit rest) :
    Waits limit rest :=
  ⟨⟨rfl, nofun, h.ends⟩, hrest⟩

namespace StreamFrameDecoder

section

variable {d : StreamFrameDecoder} (hd : Waits d.maxFrameBytes d.buffer)
include hd

/-- A call returns the frames that its chunk completes, or throws. A call for no bytes is no
exception: what is buffered is no frame. -/
theorem push_spec (chunk : List Byte) :
    ∃ frames rest, Splits d.maxFrameBytes (d.buffer ++ chunk) frames rest ∧
      if OverLimit d.maxFrameBytes rest then ∃ e, d.push chunk = (.error e, { d with buffer := [] })
      else d.push chunk = (.ok frames, { d with buffer := rest }) := by
  by_cases hempty : chunk.length = 0
  · rw [push, if_pos hempty, eq_nil_of_length_eq_zero hempty, append_nil]
    exact ⟨[], d.buffer, hd.1, by rw [if_neg hd.2]⟩
  obtain ⟨frames, rest, h, hrest⟩ := extractFrames_spec d.maxFrameBytes (d.buffer ++ chunk)
  refine ⟨frames, rest, h, ?_⟩
  rw [push, if_neg hempty]
  split_ifs at hrest ⊢
  · obtain ⟨e, he⟩ := hrest
    exact ⟨e, by rw [he]⟩
  · rw [hrest]

theorem delivered_nil_iff (chunks : List (List Byte)) :
    delivered (d.pushAll chunks) = [] ↔ Quiet d.maxFrameBytes d.buffer chunks := by
  induction chunks generalizing d with
  | nil => exact iff_of_true rfl trivial
  | cons chunk chunks ih =>
    obtain ⟨frames, rest, h, hpush⟩ := push_spec hd chunk
    rw [Quiet, h.exists_iff, pushAll]
    split_ifs at hpush ⊢ with hover
    · obtain ⟨e, hpush⟩ := hpush
      rw [hpush]
      exact ih waits_nil
    · rw [hpush, ← ih (d := { d with buffer := rest }) (h.waits hover)]
      exact append_eq_nil_iff

/-- What the calls return is right exactly for clean chunks. -/
theorem delivers_iff_clean (chunks : List (List Byte)) :
    d.Delivers chunks ↔ Clean d.maxFrameBytes d.buffer chunks := by
  induction chunks generalizing d with
  | nil => exact iff_of_true ⟨⟨d.buffer, append_nil _, nofun, hd.1.ends⟩, rfl⟩ trivial
  | cons chunk chunks ih =>
    obtain ⟨frames, rest, h, hpush⟩ := push_spec hd chunk
    rw [Clean, h.exists_iff, Delivers, pushAll, flatten_cons, ← append_assoc]
    split_ifs at hpush ⊢ with hover
    · obtain ⟨e, hpush⟩ := hpush
      rw [hpush]
      -- The frames of the stream are those that the call had taken when it threw.
      obtain ⟨n, hread, hn⟩ := hover
      have hstream : Splits d.maxFrameBytes (d.buffer ++ chunk ++ chunks.flatten) frames
          (rest ++ chunks.flatten) := by
        refine ⟨by rw [h.bytes, append_assoc], h.frames, fun m hm => .inl ?_⟩
        rw [readUInt32BE_append hread, Option.some_inj] at hm
        exact hm ▸ hn
      refine and_congr ⟨?_, ?_⟩ (delivered_nil_iff (d := { d with buffer := [] }) waits_nil chunks)
      · rintro ⟨_, hnone⟩
        exact (hstream.unique hnone).1
      · rintro rfl
        exact ⟨_, hstream⟩
    · rw [hpush, ← ih (d := { d with buffer := rest }) (h.waits hover)]
      exact and_congr_left' (exists_congr fun _ => h.append_iff)

end

/-- The calls for the chunks of a stream return its frames, and none behind a header over the limit,
exactly when the chunk that completes that header completes no frame and the chunks behind it complete
none either. -/
theorem frames_delivered_iff (maxFrameBytes : ℕ) (chunks : List (List Byte)) :
    (mk [] maxFrameBytes).Delivers chunks ↔ Clean maxFrameBytes [] chunks :=
  delivers_iff_clean waits_nil chunks

/-- An empty frame and a header over the limit: in one chunk, the frame is lost. The other way round,
the frame is delivered behind the error. -/
theorem frame_lost_with_header :
    let frame : Frame := [0, 0, 0, 0]
    let header : List Byte := [255, 255, 255, 255]
    ¬ (mk [] maxRequestFrameBytes).Delivers [frame ++ header] ∧
      ¬ (mk [] maxRequestFrameBytes).Delivers [header, frame] := by
  intro frame header
  have hframe : ∀ f ∈ [frame], IsFrame maxRequestFrameBytes f :=
    forall_mem_singleton.mpr ⟨0, Nat.zero_le _, rfl, rfl⟩
  have hends : ∀ n, readUInt32BE header = some n →
      maxRequestFrameBytes < n ∨ header.length < frameHeaderBytes + n := by decide
  have hlast : Splits maxRequestFrameBytes (frame ++ header) [frame] header := ⟨rfl, hframe, hends⟩
  have hfirst : Splits maxRequestFrameBytes header [] header := ⟨rfl, nofun, hends⟩
  have halone : Splits maxRequestFrameBytes frame [frame] [] := ⟨rfl, hframe, nofun⟩
  have hover : OverLimit maxRequestFrameBytes header := ⟨2 ^ 32 - 1, rfl, by decide⟩
  simp only [delivers_iff_clean (d := mk [] _) waits_nil, Clean, Quiet, nil_append, hlast.exists_iff,
    hfirst.exists_iff, halone.exists_iff, hover, if_true]
  decide

end StreamFrameDecoder

/-! ## The response of the daemon -/

namespace FrameExchange

variable (parse : PayloadParser) (request : ApplicationRuntimeRequest)

/-- A connected exchange that received these bytes in one chunk. -/
def receivedAtOnce (bytes : List Byte) : FrameExchange :=
  ({ connected := true } : FrameExchange).onData parse bytes

/-- More bytes come as if with those before them, or find the exchange settled. -/
theorem receivedAtOnce_append (bytes more : List Byte) :
    let s := receivedAtOnce parse bytes
    let s' := receivedAtOnce parse (bytes ++ more)
    s.settled = none ∧ s.onData parse more = s' ∨ s.settled.isSome = true ∧ s'.settled = s.settled := by
  unfold receivedAtOnce onData
  cases hread : readUInt32BE bytes with
  | none => simp [hread, deliver]
  | some n =>
    simp only [nil_append, hread, readUInt32BE_append hread]
    split_ifs
    · exact .inr ⟨rfl, rfl⟩
    unfold deliver
    by_cases hlong : frameHeaderBytes + n ≤ bytes.length
    · -- The frame is complete, and more bytes stay behind it.
      have hfits : frameHeaderBytes + n ≤ (bytes ++ more).length := by
        rw [length_append]
        omega
      simp only [hlong, hfits, if_true, take_append_of_le_length hlong]
      right
      split <;> exact ⟨rfl, rfl⟩
    · simp [hlong]

/-- However a response is cut into chunks, and whatever happens to the socket behind them, the
attempt is settled as if its bytes had come in one. -/
theorem response_reassembled (chunks : List (List Byte)) (events : List SocketEvent) :
    (run parse request (.connect :: chunks.map .data ++ events)).settled =
      (run parse request (.connect :: .data chunks.flatten :: events)).settled := by
  -- The bytes that came before the chunks carry the induction.
  suffices hrun : ∀ bytes, ((chunks.map SocketEvent.data ++ events).foldl (step parse request)
      (receivedAtOnce parse bytes)).settled = (events.foldl (step parse request)
        (receivedAtOnce parse (bytes ++ chunks.flatten))).settled from hrun []
  intro bytes
  induction chunks generalizing bytes with
  | nil =>
    rw [flatten_nil, append_nil]
    rfl
  | cons chunk chunks ih =>
    rw [flatten_cons, ← append_assoc, map_cons, cons_append, foldl_cons, ← ih]
    obtain ⟨hnone, hchunk⟩ | ⟨hsome, hchunk⟩ := receivedAtOnce_append parse bytes chunk
    · rw [step, if_neg (by simp [hnone]), hchunk]
    · rw [step, if_pos hsome, foldl_step_settled _ hsome,
        foldl_step_settled _ (hchunk ▸ hsome), hchunk]

end FrameExchange

end ZimaControl
