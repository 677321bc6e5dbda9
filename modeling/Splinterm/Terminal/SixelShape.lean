import Splinterm.Terminal.Sixel

/-!
# The sixel decoder stays in its raster

The raster always holds `height * width` pixels, within the limits, and the palette all its
registers, so no byte makes the decoder write or read outside them: a byte is taken or the image is
refused, and what a finished image holds is its size in pixels.
-/

namespace Splinterm.Terminal.SixelDecoder

open Lib.Hoare List Nat

/-- The raster is full and within the limits, and every register a byte can name exists. -/
structure Inv (limits : ImageLimits) (d : SixelDecoder) : Prop where
  configured : d.limits = limits
  maximumWidth : d.maximumWidth ≤ limits.maximumDimension
  maximumHeight : d.maximumHeight ≤ limits.maximumDimension
  width : d.width ≤ d.maximumWidth
  height : d.height ≤ d.maximumHeight
  area : d.height * d.width ≤ limits.maximumPixels
  bytes : d.height * d.width * 4 ≤ limits.bytesPerContent
  pixels : d.pixels.length = d.height * d.width
  painted : ∀ y ∈ d.bottommostPainted, y < d.height
  palette : d.palette.length = maxSixelColors
  paletteSize : d.paletteSize ≤ maxSixelColors
  colorIndex : d.colorIndex < maxSixelColors

variable {limits : ImageLimits} {d d' : SixelDecoder} {fail : SixelStop → SixelDecoder → Prop}

/-- A refusal, with the decoder still in order. -/
def Refused (limits : ImageLimits) (stop : SixelStop) (d : SixelDecoder) : Prop :=
  (∃ error, stop = .rejected error) ∧ d.Inv limits

theorem Inv.refused (h : d.Inv limits) (error : SixelError) : Refused limits (.rejected error) d :=
  ⟨⟨error, rfl⟩, h⟩

theorem inv_new (p1 p2 : Nat) (limits : ImageLimits) (paletteSize maximumWidth maximumHeight : Nat)
    (initialPalette : List Nat) :
    (SixelDecoder.new p1 p2 limits paletteSize maximumWidth maximumHeight initialPalette).Inv limits where
  configured := rfl
  maximumWidth := min_le_right ..
  maximumHeight := min_le_right ..
  width := zero_le _
  height := zero_le _
  area := zero_le _
  bytes := zero_le _
  pixels := rfl
  painted := fun _ h => by cases h
  palette := length_sixelPalette initialPalette
  paletteSize := min_le_right ..
  colorIndex := show 0 < 1024 by decide

theorem wp_checked32 {value : Nat} {post : Nat → SixelDecoder → Prop} : wp (checked32 value) post fail d ↔
      (value < 2 ^ 32 → post value d) ∧ (¬ value < 2 ^ 32 → fail (.rejected .dimensions) d) := by
  simp only [checked32, wp_bind, wp_ensure, wp_pure]

/-! ## Growing -/

theorem length_resizedPixels {oldWidth oldHeight width height : Nat} (background : Nat)
    {pixels : List Nat} (hpixels : pixels.length = oldHeight * oldWidth) (hwidth : oldWidth ≤ width) :
    (resizedPixels oldWidth oldHeight width height background pixels).length = height * width := by
  have hrow : ∀ y, (if y < oldHeight then
      (pixels.drop (y * oldWidth)).take oldWidth ++ List.replicate (width - oldWidth) background
      else List.replicate width background).length = width := by
    intro y
    split
    · rename_i hy
      have hrows : (y + 1) * oldWidth ≤ oldHeight * oldWidth := mul_le_mul_right oldWidth hy
      rw [succ_mul] at hrows
      simp only [length_append, length_take, length_drop, length_replicate, hpixels]
      omega
    · exact length_replicate
  rw [resizedPixels, length_flatMap, map_congr_left (fun y _ => hrow y)]
  simp

theorem length_flatMap_littleEndian (pixels : List Nat) : (pixels.flatMap littleEndian).length = pixels.length * 4 := by
  have hfour : pixels.map (fun pixel => (littleEndian pixel).length) = pixels.map fun _ => 4 := rfl
  rw [length_flatMap, hfour]
  simp

theorem mem_paintedRows {sixel : UInt8} {y : Nat} (hy : y ∈ d.paintedRows sixel) : y < d.row + 6 * d.pan := by
  simp only [paintedRows, mem_flatMap, mem_filter, mem_range, mem_map] at hy
  obtain ⟨bit, ⟨hbit, -⟩, vertical, hvertical, rfl⟩ := hy
  have hrows : (bit + 1) * d.pan ≤ 6 * d.pan := mul_le_mul_right d.pan hbit
  rw [succ_mul] at hrows
  omega

theorem pixel_in_raster {x y width height : Nat} (hx : x < width) (hy : y < height) :
    x + y * width < height * width := by
  have hrows : (y + 1) * width ≤ height * width := mul_le_mul_right width hy
  rw [succ_mul] at hrows
  omega

/-- A raster of the given size. -/
def HasSize (limits : ImageLimits) (width height : Nat) (d : SixelDecoder) : Prop :=
  d.Inv limits ∧ d.width = width ∧ d.height = height

/-- Painting inside the raster changes colors of pixels alone. -/
theorem wp_paint {width height x y : Nat} (h : d.HasSize limits width height) (hx : x < width)
    (hy : y < height) (hfits : y < 2 ^ 32) :
    wp (paint x y) (fun _ d' => d'.HasSize limits width height) fail d := by
  obtain ⟨h, rfl, rfl⟩ := h
  have hinside : x + y * d.width < d.pixels.length := by
    rw [h.pixels]
    exact pixel_in_raster hx hy
  simp only [paint, wp_bind, wp_get, wp_ensure, wp_set]
  refine ⟨fun _ => ⟨fun _ => ⟨{ h with pixels := length_set.trans h.pixels, painted := ?_ }, rfl, rfl⟩,
    fun hbad => absurd hinside hbad⟩, fun hbad => absurd hfits hbad⟩
  rintro _ ⟨⟩
  cases hbottom : d.bottommostPainted with
  | none => exact hy
  | some old => exact Nat.max_lt.mpr ⟨h.painted old hbottom, hy⟩

theorem wp_remembering {m : SixelM Unit} (h : wp m (fun _ d' => d'.Inv limits) (Refused limits) d) :
    wp (remembering m) (fun _ d' => d'.Inv limits) (Refused limits) d := by
  simp only [wp, remembering] at h ⊢
  cases hm : m d with
  | ok u d' =>
    rw [hm] at h
    exact h
  | error stop d' =>
    rw [hm] at h
    obtain ⟨⟨error, rfl⟩, hinv⟩ := h
    have hremembered : ({ d' with failed := some error } : SixelDecoder).Inv limits := { hinv with }
    exact hremembered.refused error

section

variable (ext : External) (h : d.Inv limits)

include h

/-- How large the raster is afterwards. -/
structure Grown (limits : ImageLimits) (requestedWidth requestedHeight : Nat) (d' : SixelDecoder) : Prop where
  inv : d'.Inv limits
  width : requestedWidth = 0 ∨ requestedHeight = 0 ∨ requestedWidth ≤ d'.width
  height : requestedWidth = 0 ∨ requestedHeight = 0 ∨ requestedHeight ≤ d'.height

theorem wp_grow (requestedWidth requestedHeight : Nat) : wp (grow requestedWidth requestedHeight)
      (fun _ d' => Grown limits requestedWidth requestedHeight d') (Refused limits) d := by
  have hhead : ∃ first, d.palette.head? = some first := by
    cases hp : d.palette with
    | nil =>
      have hlength := h.palette
      rw [hp] at hlength
      cases hlength
    | cons first rest => exact ⟨first, rfl⟩
  obtain ⟨first, hfirst⟩ := hhead
  rw [grow, wp_bind, wp_get]
  simp only [wp_whenever, wp_bind, wp_ensure]
  refine ⟨fun _ => ⟨fun hmaximum => ⟨fun harea => ⟨fun hbytes => ⟨fun _ => ?_, fun hsame => ?_⟩,
    fun _ => h.refused _⟩, fun _ => h.refused _⟩, fun _ => h.refused _⟩, fun hnone => ?_⟩
  · have hset : ∀ background : Nat, wp (do
        ensure (d.height * d.width ≤ d.pixels.length) (.fault .panic)
        set { d with
          width := max d.width requestedWidth
          height := max d.height requestedHeight
          pixels := resizedPixels d.width d.height (max d.width requestedWidth)
            (max d.height requestedHeight) background d.pixels } : SixelM Unit)
        (fun _ d' => Grown limits requestedWidth requestedHeight d') (Refused limits) d := by
      intro background
      simp only [wp_bind, wp_ensure, wp_set]
      refine ⟨fun _ => ⟨?_, .inr (.inr (le_max_right ..)), .inr (.inr (le_max_right ..))⟩,
        fun hbad => absurd h.pixels.ge hbad⟩
      exact { h with
        width := hmaximum.1
        height := hmaximum.2
        area := h.configured ▸ harea
        bytes := h.configured ▸ hbytes
        pixels := length_resizedPixels background h.pixels (le_max_left ..)
        painted := fun y hy => (h.painted y hy).trans_le (le_max_left ..) }
    by_cases ht : d.transparent = true
    · rw [if_pos ht]
      exact hset 0
    · rw [if_neg ht, hfirst]
      exact hset first
  · refine ⟨h, ?_, ?_⟩ <;> omega
  · refine ⟨h, ?_, ?_⟩ <;> omega

theorem wp_addSixels (sixel : UInt8) (count : Nat) :
    wp (addSixels sixel count) (fun _ d' => d'.Inv limits) (Refused limits) d := by
  simp only [addSixels, wp_bind, wp_get, wp_checked32]
  refine ⟨fun _ => ⟨fun _ => ⟨fun hfits => ?_, fun _ => h.refused _⟩, fun _ => h.refused _⟩, fun _ => h.refused _⟩
  refine wp_imp (wp_grow h _ _) ?_
  rintro _ grown hgrown
  simp only [wp_bind, wp_ensure, wp_modify]
  refine ⟨fun _ => ?_, fun _ => hgrown.inv.refused _⟩
  have hstart : HasSize limits grown.width grown.height
      { grown with pixelWrites := grown.pixelWrites + 6 * grown.pan * (count * d.pad) } :=
    ⟨{ hgrown.inv with }, rfl, rfl⟩
  refine wp_imp (wp_forM ?_ hstart) ?_
  · intro x hx current hcurrent
    apply wp_forM ?_ hcurrent
    intro y hy current hcurrent
    rw [mem_range'_1] at hx
    have hrow := mem_paintedRows hy
    have hwidth := hgrown.width
    have hheight := hgrown.height
    exact wp_paint hcurrent (by omega) (by omega) (by omega)
  · rintro _ d' ⟨hinv, -, -⟩
    exact { hinv with }

/-! ## Bytes -/

theorem wp_data (b : UInt8) : wp (data b) (fun _ d' => d'.Inv limits) (Refused limits) d := by
  rw [data]
  simp only [wp_ite, wp_modify, wp_pure, wp_throw]
  refine ⟨fun _ => { h with }, fun _ => ⟨fun _ => { h with }, fun _ => ⟨fun _ => ?_,
    fun _ => ⟨fun _ => { h with }, fun _ => ⟨fun _ => ?_, fun _ => ⟨fun _ => wp_addSixels h _ 1,
    fun _ => ⟨fun _ => h, fun _ => h.refused _⟩⟩⟩⟩⟩⟩⟩
  · exact { h with colorIndex := show 0 < 1024 by decide }
  · simp only [wp_bind, wp_get, wp_checked32, wp_modify]
    have hmoved : ∀ row : Nat, ({ d with row, column := 0, bottomPixel := 0 } : SixelDecoder).Inv limits :=
      fun row => { h with }
    refine ⟨fun _ => ⟨fun _ => ?_, fun _ => (hmoved _).refused _⟩, fun _ => h.refused _⟩
    exact wp_imp (wp_grow (hmoved _) _ _) (fun _ _ hgrown => hgrown.inv)

theorem Inv.storeParameter : d.storeParameter.Inv limits := by
  rw [SixelDecoder.storeParameter]
  split
  · exact { h with }
  · exact { h with }

theorem wp_finishRaster : wp finishRaster (fun _ d' => d'.Inv limits) (Refused limits) d := by
  rw [finishRaster, wp_bind, wp_modify]
  have hscaled : (if d.width = 0 ∧ d.height = 0 then
      { d with pan := clampNat 1 5 (d.param 0), pad := clampNat 1 5 (d.param 1) } else d).Inv limits := by
    split
    · exact { h with }
    · exact h
  simp only [wp_bind, wp_get, wp_checked32, wp_whenever]
  refine ⟨fun _ => ⟨fun _ => ⟨fun _ => ?_, fun _ => hscaled⟩, fun _ => hscaled.refused _⟩, fun _ => hscaled.refused _⟩
  exact wp_imp (wp_grow hscaled _ _) (fun _ _ hgrown => hgrown.inv)

theorem wp_finishColor : wp (finishColor ext) (fun _ d' => d'.Inv limits) (Refused limits) d := by
  rw [finishColor, wp_bind, wp_modify]
  have hselected : (if 0 < d.parameterIndex then
      { d with colorIndex := min (d.param 0) (d.paletteSize - 1) } else d).Inv limits := by
    split
    · refine { h with colorIndex := ?_ }
      have hsize := h.paletteSize
      show min (d.param 0) (d.paletteSize - 1) < maxSixelColors
      have hpos : 0 < maxSixelColors := by decide
      omega
    · exact h
  generalize (if 0 < d.parameterIndex then
    { d with colorIndex := min (d.param 0) (d.paletteSize - 1) } else d) = selected at hselected
  have hregister : selected.colorIndex < selected.palette.length := by
    rw [hselected.palette]
    exact hselected.colorIndex
  simp only [wp_bind, wp_get, wp_okOr, wp_ite, wp_set]
  refine ⟨fun held _ => ⟨fun _ => ?_, fun _ => { hselected with }⟩, ?_⟩
  · exact { hselected with palette := length_set.trans hselected.palette }
  · rw [getElem?_eq_getElem hregister]
    intro hbad
    exact absurd hbad (Option.some_ne_none _)

theorem wp_parameterByte (b : UInt8) {state : SixelState}
    (hstate : state ≠ .data) : wp (parameterByte ext b state) (fun _ d' => d'.Inv limits) (Refused limits) d := by
  have hdata : ∀ d' : SixelDecoder, d'.Inv limits →
      wp (data b) (fun _ d' => d'.Inv limits) (Refused limits) { d' with state := .data } := by
    intro d' hd'
    apply wp_data
    exact { hd' with }
  unfold parameterByte
  simp only [wp_ite, wp_bind, wp_modify]
  refine ⟨fun _ => { h with }, fun _ => ⟨fun _ => h.storeParameter, fun _ => ?_⟩⟩
  have hstored := h.storeParameter
  cases state with
  | data => exact absurd rfl hstate
  | raster =>
    rw [wp_bind]
    exact wp_imp (wp_finishRaster hstored) (fun _ d' hd' => hdata d' hd')
  | repeating =>
    simp only [wp_bind, wp_get, wp_set, wp_ite]
    have hinv : ({ d.storeParameter with state := .data } : SixelDecoder).Inv limits := { hstored with }
    exact ⟨fun _ => wp_addSixels hinv _ _, fun _ => hdata _ hstored⟩
  | color =>
    rw [wp_bind]
    exact wp_imp (wp_finishColor ext hstored) (fun _ d' hd' => hdata d' hd')

theorem wp_byte (b : UInt8) (state : SixelState) : wp (match state with
      | .data => data b
      | state => parameterByte ext b state) (fun _ d' => d'.Inv limits) (Refused limits) d := by
  cases state with
  | data => exact wp_data h b
  | raster | repeating | color => exact wp_parameterByte ext h b (by decide)

theorem wp_put (b : UInt8) : wp (put ext b) (fun _ d' => d'.Inv limits) (Refused limits) d := by
  rw [put, wp_bind, wp_get]
  cases d.failed with
  | some error => exact h.refused error
  | none =>
    simp only [wp_bind, wp_ensure]
    refine ⟨fun _ => wp_remembering (wp_byte ext ?_ b d.state), fun _ => h.refused _⟩
    exact { h with }

/-! ## Whole images -/

theorem finish_spec {image : SixelImage} (hfinish : d.finish = .ok image) :
    1 ≤ image.width ∧ 1 ≤ image.height ∧ image.width ≤ d.width ∧ image.height ≤ d.height ∧
      image.pixels.length = image.width * image.height * 4 := by
  rw [finish] at hfinish
  cases hfailed : d.failed with
  | some error =>
    rw [hfailed] at hfinish
    cases hfinish
  | none =>
    rw [hfailed] at hfinish
    obtain ⟨_, hsome, hfinish⟩ := bind_eq_ok.mp hfinish
    have hnonempty := rejectIf_eq_ok.mp hsome
    have hdone (height : Nat) (hwithin : 1 ≤ height ∧ height ≤ d.height) :
        1 ≤ d.width ∧ 1 ≤ height ∧ d.width ≤ d.width ∧ height ≤ d.height ∧
          ((d.pixels.take (height * d.width)).flatMap littleEndian).length = d.width * height * 4 := by
      refine ⟨by omega, hwithin.1, le_rfl, hwithin.2, ?_⟩
      rw [length_flatMap_littleEndian, length_take, h.pixels,
        min_eq_left (mul_le_mul_right d.width hwithin.2), mul_comm height]
    dsimp only at hfinish
    split at hfinish
    all_goals
      obtain ⟨height, hheight, hfinish⟩ := bind_eq_ok.mp hfinish
      obtain ⟨_, -, hfinish⟩ := bind_eq_ok.mp hfinish
      obtain ⟨_, -, hfinish⟩ := bind_eq_ok.mp hfinish
      cases hfinish
      refine hdone height ?_
    · cases hbottom : d.bottommostPainted with
      | none =>
        rw [hbottom] at hheight
        cases hheight
      | some bottom =>
        rw [hbottom] at hheight
        cases hheight
        exact ⟨Nat.le_add_left .., h.painted bottom hbottom⟩
    · cases hheight
      omega

/-- The decoder after a run of bytes; a refusal ends no run, as `put` may be called again. -/
def putAll (ext : External) : List UInt8 → SixelDecoder → Except Fault SixelDecoder
  | [], d => .ok d
  | b :: rest, d =>
    match put ext b d with
    | .ok _ d | .error (.rejected _) d => putAll ext rest d
    | .error (.fault fault) _ => .error fault

theorem putAll_spec (bytes : List UInt8) : ∃ d', putAll ext bytes d = .ok d' ∧ d'.Inv limits := by
  induction bytes generalizing d with
  | nil => exact ⟨d, rfl, h⟩
  | cons b rest ih =>
    have hput := wp_put ext h b
    rw [wp] at hput
    rw [putAll]
    cases hrun : put ext b d with
    | ok _ d' =>
      rw [hrun] at hput
      exact ih hput
    | error stop d' =>
      rw [hrun] at hput
      obtain ⟨⟨error, rfl⟩, hinv⟩ := hput
      exact ih hinv

end

/-- For all limits and bytes the decoder never faults, its raster is within the limits, and a finished image
has at least one pixel, is within the limits and holds four bytes a pixel. -/
theorem decoding_stays_in_raster (ext : External) (p1 p2 : Nat) (limits : ImageLimits)
    (paletteSize maximumWidth maximumHeight : Nat) (initialPalette : List Nat) (bytes : List UInt8) :
    ∃ d, putAll ext bytes
        (SixelDecoder.new p1 p2 limits paletteSize maximumWidth maximumHeight initialPalette) = .ok d ∧
      d.width ≤ limits.maximumDimension ∧ d.height ≤ limits.maximumDimension ∧
      d.pixels.length = d.height * d.width ∧ d.height * d.width ≤ limits.maximumPixels ∧
      d.height * d.width * 4 ≤ limits.bytesPerContent ∧ ∀ image, d.finish = .ok image →
        1 ≤ image.width ∧ image.width ≤ limits.maximumDimension ∧
        1 ≤ image.height ∧ image.height ≤ limits.maximumDimension ∧
        image.width * image.height ≤ limits.maximumPixels ∧ image.width * image.height * 4 ≤ limits.bytesPerContent ∧
        image.pixels.length = image.width * image.height * 4 := by
  have hnew := inv_new p1 p2 limits paletteSize maximumWidth maximumHeight initialPalette
  obtain ⟨d, hrun, h⟩ := putAll_spec ext hnew bytes
  have hwidth := h.width.trans h.maximumWidth
  have hheight := h.height.trans h.maximumHeight
  refine ⟨d, hrun, hwidth, hheight, h.pixels, h.area, h.bytes, fun image hfinish => ?_⟩
  obtain ⟨hcolumns, hrows, hnarrow, hlow, hpixels⟩ := finish_spec h hfinish
  have harea : image.width * image.height ≤ d.height * d.width := by
    rw [mul_comm d.height]
    exact Nat.mul_le_mul hnarrow hlow
  exact ⟨hcolumns, hnarrow.trans hwidth, hrows, hlow.trans hheight, harea.trans h.area,
    (mul_le_mul_right 4 harea).trans h.bytes, hpixels⟩

end Splinterm.Terminal.SixelDecoder
