import GamePack.Proofs.Container.Cursor
import GamePack.Proofs.Sprite.Payload
import GamePack.Proofs.Sprite.Picture
import GamePack.Proofs.Sprite.Steps

/-!
Sprites as they are stored. A payload is any bytes: the offsets in it may
be shared, in no order or point back into the table. Whatever they are,
a line that was taken from it is a row of steps and nothing else, so it
can be read wherever it stands. Such sprites can be drawn, and written
they are read back as they are.

The pixels are also drawn: every run is copied to its place in a buffer
of the size of the sprite, where a place that the buffer does not have is
told apart from a line that cannot be read. `draw_eq` says that there is
no such place, for any sprite with as many lines as rows: the runs of a
line stay inside the width.
-/
namespace GamePack.SpriteImage

open Sprite

variable {width x y place : Nat} {t : UInt8} {runs : List Run}
  {front back pixels row : Bytes} {line : Option Bytes}
  {lines : ImageLines} {image : SpriteImage} {payload : Bytes}

-- ============================================================ drawing

/-- A buffer with pixels copied over those from a place on. -/
def copyAt (buffer : Bytes) (place : Nat) (pixels : Bytes) :
    Except CursorStop Bytes :=
  if place + pixels.length ≤ buffer.length then
    .ok (buffer.take place ++ pixels ++
      buffer.drop (place + pixels.length))
  else .error .outOfRange

/-- A buffer with runs copied into the row that starts at a place. -/
def drawRuns (place : Nat) (buffer : Bytes) :
    List Run → Except CursorStop Bytes
  | [] => .ok buffer
  | r :: rest => do
    drawRuns place (← copyAt buffer (place + r.start) r.pixels) rest

/-- A buffer with a line drawn into a row. -/
def drawLine (width y : Nat) (buffer : Bytes) :
    Option Bytes → Except CursorStop Bytes
  | none => .ok buffer
  | some data =>
    match decodeLine data width with
    | .error cause => .error (.refused cause)
    | .ok (runs, _) => drawRuns (y * width) buffer runs

/-- A buffer with lines drawn into the rows from a number on. -/
def drawLines (width y : Nat) (buffer : Bytes) :
    ImageLines → Except CursorStop Bytes
  | [] => .ok buffer
  | line :: lines => do
    drawLines width (y + 1) (← drawLine width y buffer line) lines

/-- The pixels of a sprite, drawn into a transparent buffer of its
size. -/
def draw (image : SpriteImage) (transparent : UInt8) :
    Except CursorStop Bytes :=
  drawLines image.width 0
    (List.replicate (image.width * image.height) transparent) image.lines

/-- Pixels are copied over as many behind the ones that are kept. -/
theorem copyAt_append {hidden : Bytes} (hplace : front.length = place)
    (hlen : hidden.length = pixels.length) :
    copyAt (front ++ (hidden ++ back)) place pixels =
      .ok (front ++ (pixels ++ back)) := by
  have hfits : place + pixels.length ≤
      (front ++ (hidden ++ back)).length := by
    simp only [List.length_append]
    omega
  unfold copyAt
  rw [if_pos hfits, ← hplace, List.take_left', ← hlen,
    ← List.append_assoc front hidden, ← List.length_append,
    List.drop_left', List.append_assoc]
  · rfl
  · rfl

/-- Drawing ordered runs from a column on paints them into the row. -/
theorem drawRuns_eq (ho : OrderedFrom x runs)
    (hwidth : stopFrom x runs ≤ width)
    (hplace : front.length = place + x) :
    drawRuns place
        (front ++ (List.replicate (width - x) t ++ back)) runs =
      .ok (front ++ (paintFrom t width x runs ++ back)) := by
  induction runs generalizing x front with
  | nil => rfl
  | cons r rest ih =>
      obtain ⟨hstart, hrest⟩ := ho
      have hstop := Nat.le_trans (le_stopFrom hrest) hwidth
      -- the row splits into the gap, what the run covers and the rest
      have hsplit : List.replicate (width - x) t =
          List.replicate (r.start - x) t ++
            (List.replicate r.pixels.length t ++
              List.replicate (width - r.stop) t) := by
        rw [← List.replicate_add, ← List.replicate_add]
        congr 1
        unfold Run.stop at hstop ⊢
        omega
      have hgap : (front ++ List.replicate (r.start - x) t).length =
          place + r.start := by
        rw [List.length_append, List.length_replicate]
        omega
      have hcopy : copyAt (front ++ List.replicate (r.start - x) t ++
            (List.replicate r.pixels.length t ++
              (List.replicate (width - r.stop) t ++ back)))
          (place + r.start) r.pixels = .ok _ :=
        copyAt_append hgap List.length_replicate
      have hdrawn : (front ++ List.replicate (r.start - x) t ++
          r.pixels).length = place + r.stop := by
        rw [List.length_append, hgap]
        unfold Run.stop
        omega
      have hnext := ih hrest hwidth hdrawn
      simp only [List.append_assoc] at hcopy hnext
      simp only [hsplit, drawRuns, paintFrom, List.append_assoc]
      rw [hcopy, ok_bind]
      exact hnext

/-- A row that is painted from a column on fills the width. -/
theorem length_paintFrom (ho : OrderedFrom x runs)
    (hwidth : stopFrom x runs ≤ width) :
    (paintFrom t width x runs).length = width - x := by
  induction runs generalizing x with
  | nil => exact List.length_replicate
  | cons r rest ih =>
      obtain ⟨hstart, hrest⟩ := ho
      have hstop := Nat.le_trans (le_stopFrom hrest) hwidth
      simp only [paintFrom, List.length_append, List.length_replicate,
        ih hrest hwidth]
      unfold Run.stop at hstop ⊢
      omega

/-- What can be read of a line are runs in order, inside the width. -/
theorem ordered_of_decodeLine {data : Bytes} {used : Nat}
    (h : decodeLine data width = .ok (runs, used)) :
    OrderedFrom 0 runs ∧ stopFrom 0 runs ≤ width := by
  obtain ⟨code, rest, -, -, hsteps⟩ := decodeLine_ok_iff.1 h
  obtain ⟨hseparated, hinside⟩ := hsteps.separated_and_inside
  exact ⟨hseparated.ordered, hinside⟩

/-- The pixels of a line fill the width. -/
theorem length_of_linePixels (h : linePixels t width line = .ok row) :
    row.length = width := by
  cases line with
  | none =>
      cases h
      exact List.length_replicate
  | some data =>
      unfold linePixels at h
      cases hdata : decodeLine data width with
      | error cause =>
          simp only [hdata, reduceCtorEq] at h
      | ok result =>
          simp only [hdata, Except.ok.injEq] at h
          obtain ⟨ho, hwidth⟩ := ordered_of_decodeLine hdata
          rw [← h]
          exact length_paintFrom ho hwidth

/-- A line is drawn over a transparent row as its pixels. -/
theorem drawLine_eq (hplace : front.length = y * width) :
    drawLine width y (front ++ (List.replicate width t ++ back)) line =
      ((fun row => front ++ (row ++ back)) <$>
        linePixels t width line).mapError .refused := by
  cases line with
  | none => rfl
  | some data =>
      cases hdata : decodeLine data width with
      | error cause =>
          simp only [drawLine, linePixels, hdata]
          rfl
      | ok result =>
          obtain ⟨ho, hwidth⟩ := ordered_of_decodeLine hdata
          simp only [drawLine, linePixels, hdata]
          exact drawRuns_eq ho hwidth hplace

/-- Lines are drawn over transparent rows as their pixels. -/
theorem drawLines_eq (hplace : front.length = y * width) :
    drawLines width y (front ++ List.replicate (width * lines.length) t)
        lines =
      ((fun rows => front ++ rows.flatten) <$>
        lines.mapM (linePixels t width)).mapError .refused := by
  induction lines generalizing y front with
  | nil => rfl
  | cons line lines ih =>
      have hsplit : List.replicate (width * (line :: lines).length) t =
          List.replicate width t ++
            List.replicate (width * lines.length) t := by
        rw [← List.replicate_add, List.length_cons, Nat.mul_succ,
          Nat.add_comm]
      rw [hsplit, drawLines, drawLine_eq hplace, List.mapM_cons]
      cases hrow : linePixels t width line with
      | error cause => rfl
      | ok row =>
          have hnext : (front ++ row).length = (y + 1) * width := by
            rw [List.length_append, hplace, length_of_linePixels hrow,
              Nat.succ_mul]
          have hrest := ih hnext
          rw [List.append_assoc] at hrest
          show drawLines width (y + 1) (front ++ (row ++ _)) lines = _
          rw [hrest, ok_bind]
          cases lines.mapM (linePixels t width) with
          | error cause => rfl
          | ok rows =>
              show Except.ok (front ++ row ++ rows.flatten) = _
              rw [List.append_assoc]
              rfl

/-- A sprite with as many lines as rows is drawn inside its buffer, and
what is drawn are its pixels. -/
theorem draw_eq (h : image.lines.length = image.height) :
    image.draw t = (image.pixels t).mapError .refused := by
  have hlines : drawLines image.width 0
      ([] ++ List.replicate (image.width * image.lines.length) t)
        image.lines = _ :=
    drawLines_eq (Nat.zero_mul image.width).symm
  rw [List.nil_append, h] at hlines
  rw [draw, hlines]
  unfold pixels pixelRows
  cases image.lines.mapM (linePixels t image.width) with
  | error cause => rfl
  | ok rows => rfl

-- ================================================== accepted payloads

/-- As many offsets are read as there are lines. -/
theorem length_of_readOffsets {count : Nat} {bytes : Bytes}
    {offsets : List Nat} (h : readOffsets count bytes = .ok offsets) :
    offsets.length = count := by
  induction count generalizing bytes offsets with
  | zero =>
      cases h
      rfl
  | succ count ih =>
      simp only [readOffsets, bind_eq_ok, pure_ok_iff] at h
      obtain ⟨word, -, later, hlater, rfl⟩ := h
      rw [List.length_cons, ih hlater]

/-- What is taken from a payload as the data of a line is a row of
steps, wherever it stands. -/
theorem isSteps_of_readLine {table data : Bytes} {offset : Nat}
    (h : readLine table width offset = .ok (some data)) :
    ∃ runs, IsSteps width 0 data runs := by
  unfold readLine at h
  split at h
  next => cases h
  next =>
    split at h
    next => cases h
    next =>
      dsimp only at h
      split at h
      next => cases h
      next runs used hread =>
        obtain ⟨code, rest, hcode, rfl, hsteps⟩ :=
          decodeLine_ok_iff.1 hread
        rw [hcode, List.take_left'] at h
        · cases h
          exact ⟨runs, hsteps⟩
        · rfl

/-- A sprite whose sizes and offsets fit the format, with a line for
each row, which is a row of steps or has no data. -/
structure IsReadable (image : SpriteImage) : Prop where
  fits : image.FitsFormat
  height : image.lines.length = image.height
  lines : ∀ data, some data ∈ image.lines →
    ∃ runs, IsSteps image.width 0 data runs

/-- An image that was read has lines that can be read. -/
theorem isReadable_of_fromPayload
    (h : fromPayload payload = .ok image) : image.IsReadable := by
  simp only [fromPayload, bind_eq_ok, pure_ok_iff] at h
  obtain ⟨w, hw, h, hh, x, hx, y, hy, offsets, hoffsets, lines, hlines,
    rfl⟩ := h
  rw [mapM_eq_ok] at hlines
  refine ⟨⟨Numeric.check_word_uint16 (readWord_ok_iff.1 hw).1,
    Numeric.check_word_uint16 (readWord_ok_iff.1 hh).1,
    Numeric.check_word_int16 (readWord_ok_iff.1 hx).1,
    Numeric.check_word_int16 (readWord_ok_iff.1 hy).1⟩, ?_, ?_⟩
  · exact hlines.length_eq.symm.trans (length_of_readOffsets hoffsets)
  · intro data hdata
    obtain ⟨offset, -, hline⟩ := exists_mem_of_forall₂ hlines.flip hdata
    exact isSteps_of_readLine hline

/-- A sprite that can be read has rows of pixels, as its size says. -/
theorem IsReadable.exists_rows (h : image.IsReadable) (t : UInt8) :
    ∃ rows, image.pixelRows t = .ok rows ∧
      rows.length = image.height ∧
      ∀ row ∈ rows, row.length = image.width := by
  have hline : ∀ line ∈ image.lines,
      ∃ row, linePixels t image.width line = .ok row := by
    intro line hline
    cases line with
    | none => exact ⟨_, rfl⟩
    | some data =>
        obtain ⟨runs, hsteps⟩ := h.lines data hline
        have hread := hsteps.decodes []
        rw [List.append_nil] at hread
        exact ⟨paintLine t image.width runs, by
          simp only [linePixels, decodeLine, hread]⟩
  obtain ⟨rows, hrows⟩ := exists_mapM_eq_ok hline
  refine ⟨rows, hrows, ?_⟩
  rw [mapM_eq_ok] at hrows
  refine ⟨hrows.length_eq.symm.trans h.height, fun row hrow => ?_⟩
  obtain ⟨line, -, hline⟩ := exists_mem_of_forall₂ hrows.flip hrow
  exact length_of_linePixels hline

/-- A sprite that can be read has pixels, as many as its size says. -/
theorem IsReadable.exists_pixels (h : image.IsReadable) (t : UInt8) :
    ∃ pixels, image.pixels t = .ok pixels ∧
      pixels.length = image.width * image.height := by
  obtain ⟨rows, hrows, hheight, hwidth⟩ := h.exists_rows t
  refine ⟨rows.flatten, by rw [pixels, hrows]; rfl, ?_⟩
  rw [length_flatten_of_width hwidth, hheight]

/-- A sprite that was read from a payload has a line for each row, is
drawn inside its buffer to as many pixels as its size says, and is read
again from the payload of its own block. -/
theorem fromPayload_stable (h : fromPayload payload = .ok image) :
    image.lines.length = image.height ∧
      (∀ t, ∃ pixels, image.pixels t = .ok pixels ∧
        image.draw t = .ok pixels ∧
        pixels.length = image.width * image.height) ∧
      ∃ block, image.toBlock = .ok block ∧
        ∀ stored, block.payload = .ok stored →
          fromPayload stored = .ok image := by
  have hreadable := isReadable_of_fromPayload h
  have hheight := hreadable.height
  refine ⟨hheight, fun t => ?_, image.blockOf,
    toBlock_ok_iff.2 ⟨hreadable.fits, rfl⟩, fun stored hstored => ?_⟩
  · obtain ⟨pixels, hpixels, hlength⟩ := hreadable.exists_pixels t
    refine ⟨pixels, hpixels, ?_, hlength⟩
    rw [draw_eq hheight, hpixels]
    rfl
  · apply fromPayload_payload hreadable.fits hheight _ hstored
    intro data hdata
    obtain ⟨runs, hsteps⟩ := hreadable.lines data hdata
    exact ⟨runs, hsteps.decodes⟩

/-- Two lines of which the second starts inside the table and ends with
the first: its own offset is two steps without pixels. -/
def knottedPayload : Bytes :=
  [6, 0, 2, 0, 254, 255, 1, 0, 8, 0, 0, 0, 4, 0, 0, 0, 129, 1, 7]

/-- The sprite in the payload, with its lines apart. -/
def knottedImage : SpriteImage :=
  ⟨6, 2, -2, 1, [some [129, 1, 7], some [4, 0, 0, 0, 129, 1, 7]]⟩

/-- The sprite is read and drawn; what is stored for it again is another
payload, which is read as the same sprite. -/
theorem fromPayload_stable_knotted :
    fromPayload knottedPayload = .ok knottedImage ∧
      knottedImage.lines.length = 2 ∧
      knottedImage.draw 0 =
        .ok [0, 7, 0, 0, 0, 0, 0, 0, 0, 0, 0, 7] ∧
      ∃ stored, knottedImage.blockOf.payload = .ok stored ∧
        stored ≠ knottedPayload ∧
        fromPayload stored = .ok knottedImage := by
  have h : fromPayload knottedPayload = .ok knottedImage := by
    decide +kernel
  have hpayload : knottedImage.blockOf.payload =
      .ok [6, 0, 2, 0, 254, 255, 1, 0, 8, 0, 0, 0, 11, 0, 0, 0,
        129, 1, 7, 4, 0, 0, 0, 129, 1, 7] := by
    decide +kernel
  have hshown : knottedImage.pixels 0 =
      .ok [0, 7, 0, 0, 0, 0, 0, 0, 0, 0, 0, 7] := by
    decide +kernel
  obtain ⟨hheight, hpixels, block, hblock, hstored⟩ :=
    fromPayload_stable h
  obtain rfl := (toBlock_ok_iff.1 hblock).2
  obtain ⟨pixels, hread, hdrawn, -⟩ := hpixels 0
  obtain rfl := Except.ok.inj (hread.symm.trans hshown)
  exact ⟨h, hheight, hdrawn, _, hpayload, by decide, hstored _ hpayload⟩

end GamePack.SpriteImage
