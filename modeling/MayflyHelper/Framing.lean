import MayflyHelper.Messages

/-! The wire format as a whole: messages are read back from their bodies, and
bodies from a stream of frames, wherever the stream is cut. -/
namespace MayflyHelper

theorem fromBeBytes_toBeBytes {n : Nat} (h : n < 2 ^ 32) : fromBeBytes (toBeBytes n) = n := by
  simp only [fromBeBytes, toBeBytes, List.foldl_cons, List.foldl_nil, UInt8.toNat_ofNat']
  omega

theorem readExact_append (bytes rest : Bytes) :
    readExact bytes.length (bytes ++ rest) = (some bytes, rest) := by
  rw [readExact, if_pos (by simp), List.take_left, List.drop_left]

theorem readExact_short {count : Nat} {stream : Bytes} (h : stream.length < count) :
    readExact count stream = (none, []) := by
  rw [readExact, if_neg (by omega)]

/-- The bytes of a frame. -/
def frame (body : Bytes) : Bytes := toBeBytes body.length ++ body

theorem writeFrame_of_le {body : Bytes} (h : body.length ≤ maxBodyBytes) :
    writeFrame body = .ok (frame body) := by
  have hWide : body.length < 2 ^ 32 := lt_of_le_of_lt h (by decide)
  rw [writeFrame, if_neg (by omega), if_neg (by omega)]
  rfl

theorem readFrame_frame {body : Bytes} (h : body.length ≤ maxBodyBytes) (rest : Bytes) :
    readFrame (frame body ++ rest) = (.ok body, rest) := by
  have hWide : body.length < 2 ^ 32 := lt_of_le_of_lt h (by decide)
  have hHeader : readExact 4 (toBeBytes body.length ++ (body ++ rest)) =
      (some (toBeBytes body.length), body ++ rest) := readExact_append (toBeBytes body.length) _
  rw [frame, List.append_assoc, readFrame, hHeader]
  dsimp only
  rw [fromBeBytes_toBeBytes hWide, if_neg (by omega), readExact_append]

/-- A frame that is cut short is all consumed. -/
theorem readFrame_of_prefix {body start : Bytes} (h : body.length ≤ maxBodyBytes)
    (hStart : start <+: frame body)
    (hShort : start.length < (frame body).length) :
    readFrame start = (.error .helperUnavailable, []) := by
  have hWide : body.length < 2 ^ 32 := lt_of_le_of_lt h (by decide)
  have hFrame : (frame body).length = 4 + body.length := by simp [frame, toBeBytes]; omega
  by_cases hHeader : start.length < 4
  · rw [readFrame, readExact_short hHeader]
  · have hLength : (toBeBytes body.length).length = 4 := rfl
    have hWhole : toBeBytes body.length <+: start :=
      List.prefix_of_prefix_length_le ⟨body, rfl⟩ hStart (by omega)
    obtain ⟨part, rfl⟩ := hWhole
    rw [List.length_append] at hShort
    have hRead : readExact 4 (toBeBytes body.length ++ part) =
      (some (toBeBytes body.length), part) :=
      readExact_append (toBeBytes body.length) _
    rw [readFrame, hRead]
    dsimp only
    rw [fromBeBytes_toBeBytes hWide, if_neg (by omega), readExact_short (by omega)]

theorem readFrame_of_large {header : Bytes} (hHeader : header.length = 4)
    (hLarge : maxBodyBytes < fromBeBytes header)
    (rest : Bytes) : readFrame (header ++ rest) = (.error .helperProtocol, rest) := by
  have hRead : readExact 4 (header ++ rest) = (some header, rest) := by
    rw [← hHeader]
    exact readExact_append header rest
  rw [readFrame, hRead]
  dsimp only
  rw [if_pos hLarge]

/-- Read up to `count` frames and stop at the first error: the bodies, the
error, and what is left of the stream. -/
def readFrames : Nat → Bytes → List Bytes × Option Error × Bytes
  | 0, stream => ([], none, stream)
  | count + 1, stream =>
      match readFrame stream with
      | (.error err, rest) => ([], some err, rest)
      | (.ok body, rest) =>
          let later := readFrames count rest
          (body :: later.1, later.2)

theorem readFrames_frame {body : Bytes} (h : body.length ≤ maxBodyBytes) (count : Nat)
    (rest : Bytes) :
    readFrames (count + 1) (frame body ++ rest) =
      (body :: (readFrames count rest).1, (readFrames count rest).2) := by
  rw [readFrames, readFrame_frame h]

theorem mapM_writeFrame {bodies : List Bytes} (h : ∀ body ∈ bodies, body.length ≤ maxBodyBytes) :
    bodies.mapM writeFrame = .ok (bodies.map frame) := by
  induction bodies with
  | nil => rfl
  | cons body bodies ih =>
      have hRest := ih fun other hOther => h other (List.mem_cons_of_mem _ hOther)
      rw [List.mapM_cons, writeFrame_of_le (h body List.mem_cons_self), hRest]
      rfl

/-- All frames are read back, with nothing left. -/
theorem readFrames_flatMap {bodies : List Bytes} (h : ∀ body ∈ bodies, body.length ≤ maxBodyBytes) :
    readFrames bodies.length (bodies.flatMap frame) = (bodies, none, []) := by
  induction bodies with
  | nil => rfl
  | cons body bodies ih =>
      have hRest := ih fun other hOther => h other (List.mem_cons_of_mem _ hOther)
      rw [List.length_cons, List.flatMap_cons, readFrames_frame (h body List.mem_cons_self), hRest]

/-- A stream that is cut yields the frames that are whole, and then the error
of a peer that went away. -/
theorem readFrames_of_prefix {bodies : List Bytes} (h : ∀ body ∈ bodies, body.length ≤ maxBodyBytes)
    (start : Bytes) (hStart : start <+: bodies.flatMap frame)
    (hProper : start ≠ bodies.flatMap frame) :
    ∃ whole < bodies.length, ((bodies.take whole).flatMap frame).length ≤ start.length ∧
      start.length < ((bodies.take (whole + 1)).flatMap frame).length ∧
      ∀ count, whole < count →
        readFrames count start = (bodies.take whole, some .helperUnavailable, []) := by
  induction bodies generalizing start with
  | nil => exact absurd (List.prefix_nil.mp hStart) hProper
  | cons body bodies ih =>
      have hBody := h body List.mem_cons_self
      rw [List.flatMap_cons] at hStart hProper
      by_cases hShort : start.length < (frame body).length
      · have hInside : start <+: frame body :=
          List.prefix_of_prefix_length_le hStart (List.prefix_append _ _) (Nat.le_of_lt hShort)
        refine ⟨0, by simp, by simp, by simpa using hShort, fun count hCount => ?_⟩
        obtain ⟨count, rfl⟩ : ∃ n, count = n + 1 := ⟨count - 1, by omega⟩
        rw [readFrames, readFrame_of_prefix hBody hInside hShort]
        rfl
      · have hWhole : frame body <+: start :=
          List.prefix_of_prefix_length_le (List.prefix_append _ _) hStart (Nat.le_of_not_lt hShort)
        obtain ⟨tail, rfl⟩ := hWhole
        rw [List.prefix_append_right_inj] at hStart
        obtain ⟨whole, hWhole, hFrom, hTo, hReads⟩ :=
          ih (fun other hOther => h other (List.mem_cons_of_mem _ hOther))
          tail hStart (fun hSame => hProper (by rw [hSame]))
        refine ⟨whole + 1, by simpa using hWhole, ?_, ?_, fun count hCount => ?_⟩
        · simpa using hFrom
        · simpa using hTo
        · obtain ⟨count, rfl⟩ : ∃ n, count = n + 1 := ⟨count - 1, by omega⟩
          rw [readFrames_frame hBody, hReads count (by omega)]
          rfl

/-- The wire format loses nothing and delimits itself. -/
theorem wire_format_lossless :
    (∀ request, ∃ body, encodeRequest request = .ok body ∧ decodeRequest body = .ok request) ∧
      (∀ response, ∃ body, encodeResponse response = .ok body ∧
        decodeResponse body = .ok response) ∧
      (∀ bodies : List Bytes, (∀ body ∈ bodies, body.length ≤ maxBodyBytes) →
        ∃ frames, bodies.mapM writeFrame = .ok frames ∧
          readFrames bodies.length frames.flatten = (bodies, none, []) ∧
          ∀ start, start <+: frames.flatten → start ≠ frames.flatten →
            ∃ whole < bodies.length, (frames.take whole).flatten.length ≤ start.length ∧
              start.length < (frames.take (whole + 1)).flatten.length ∧
              ∀ count, whole < count →
                readFrames count start = (bodies.take whole, some .helperUnavailable, [])) ∧
      ∀ header rest : Bytes, header.length = 4 → maxBodyBytes < fromBeBytes header →
        readFrame (header ++ rest) = (.error .helperProtocol, rest) := by
  refine ⟨decodeRequest_encodeRequest, decodeResponse_encodeResponse, fun bodies hBodies => ?_,
    fun header rest hHeader hLarge => readFrame_of_large hHeader hLarge rest⟩
  refine ⟨bodies.map frame, mapM_writeFrame hBodies, ?_, fun start hStart hProper => ?_⟩
  · rw [← List.flatMap_def]
    exact readFrames_flatMap hBodies
  · rw [← List.flatMap_def] at hStart hProper
    obtain ⟨whole, hWhole, hFrom, hTo, hReads⟩ := readFrames_of_prefix hBodies start hStart hProper
    refine ⟨whole, hWhole, ?_, ?_, hReads⟩
    · rwa [← List.map_take, ← List.flatMap_def]
    · rwa [← List.map_take, ← List.flatMap_def]

/-- Two frames are read back, and a length above the cap stops the reader. -/
theorem wire_format_lossless_two_frames :
    readFrames 2 [0, 0, 0, 1, 7, 0, 0, 0, 2, 8, 9] = ([[7], [8, 9]], none, []) ∧
      readFrame [0, 16, 0, 1, 5] = (.error .helperProtocol, [5]) := by
  constructor
  · have hBodies : ∀ body ∈ ([[7], [8, 9]] : List Bytes), body.length ≤ maxBodyBytes := by decide
    obtain ⟨frames, hFrames, hReads, -⟩ := wire_format_lossless.2.2.1 [[7], [8, 9]] hBodies
    have hWritten : ([[7], [8, 9]] : List Bytes).mapM writeFrame =
      .ok [[0, 0, 0, 1, 7], [0, 0, 0, 2, 8, 9]] := by
      decide
    rw [hWritten] at hFrames
    cases hFrames
    exact hReads
  · exact wire_format_lossless.2.2.2 [0, 16, 0, 1] [5] rfl (by decide)

end MayflyHelper
