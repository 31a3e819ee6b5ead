import Diagram.Proofs.Json.Colors
import Diagram.Proofs.Json.Standard

namespace Diagram

section Numbers

variable {layer : JsonLayer}

namespace ZoomPolicy

def numbers (z : ZoomPolicy Float) : List Float :=
  [z.minZoom, z.maxZoom, z.minFitScale, z.maxFitScale, z.fitRatio, z.topMargin, z.wheelIn, z.wheelOut]

theorem plain : (shape layer).Plain := by simp [RecordShape.Plain, shape]

theorem keeps_get {z : ZoomPolicy Float} (h : ∀ x ∈ z.numbers, layer.Keeps layer.double x) :
    ∀ f ∈ (shape layer).fields, layer.Keeps f.codec (f.get z) := by
  simpa [shape, numbers] using h

end ZoomPolicy

namespace SliderTrack

def numbers (t : SliderTrack Float) : List Float := [t.length, t.clickStep, t.minPercent]

theorem plain : (shape layer).Plain := by simp [RecordShape.Plain, shape]

theorem keeps_get {t : SliderTrack Float} (h : ∀ x ∈ t.numbers, layer.Keeps layer.double x) :
    ∀ f ∈ (shape layer).fields, layer.Keeps f.codec (f.get t) := by
  simpa [shape, numbers] using h

end SliderTrack

namespace NodeMetrics

def numbers (m : NodeMetrics Float) : List Float :=
  [m.charWidth, m.horizontalPadding, m.nodeHeight, m.border]

theorem plain : (shape layer).Plain := by simp [RecordShape.Plain, shape]

theorem keeps_get {m : NodeMetrics Float} (h : ∀ x ∈ m.numbers, layer.Keeps layer.double x) :
    ∀ f ∈ (shape layer).fields, layer.Keeps f.codec (f.get m) := by
  simpa [shape, numbers] using h

end NodeMetrics

end Numbers

variable {layer : JsonLayer} {mixing : ColorMixing}

namespace Palette

def colors (p : Palette) : List Color :=
  p.nodeColors.map Prod.snd ++ p.edgeColors.map Prod.snd ++
    [p.defaultNode, p.defaultEdge, p.selectedStroke, p.unselectedStroke, p.label]

def Keyed (p : Palette) : Prop :=
  (p.nodeColors.map Prod.fst).Nodup ∧ (p.edgeColors.map Prod.fst).Nodup

/-- Two palettes are the same but for the order of their tables. -/
structure Agrees (p q : Palette) : Prop where
  nodes : p.nodeColors.Perm q.nodeColors
  edges : p.edgeColors.Perm q.edgeColors
  rest : { p with nodeColors := q.nodeColors, edgeColors := q.edgeColors } = q

@[refl]
theorem Agrees.refl (p : Palette) : p.Agrees p := ⟨.refl _, .refl _, rfl⟩

/-- What a listing of a palette gives for a member: a table in any order, and other members as they
are. -/
def gives (key : String) : Json → Json → Prop :=
  if key = "node_colors" ∨ key = "edge_colors" then Json.Reordered else Json.Itself key

structure Readable (layer : JsonLayer) (p : Palette) : Prop where
  keyed : p.Keyed
  isOpaque : ∀ k ∈ p.colors, k.alpha = 255
  opacity : layer.Keeps layer.single p.disabledOpacity

theorem plain : (shape layer mixing).Plain := by simp [RecordShape.Plain, shape]

theorem keeps_get (hl : layer.Conforms) (hm : mixing.Documented) {p : Palette}
    (hp : p.Readable layer) : ∀ f ∈ (shape layer mixing).fields, layer.Keeps f.codec (f.get p) := by
  have hcolor : ∀ k ∈ p.colors, layer.Keeps (Color.codec layer mixing) k := fun k hk ↦
    Color.keeps hl hm (hp.isOpaque k hk)
  simp only [colors, List.forall_mem_append, List.forall_mem_map] at hcolor
  have hopaque := hp.isOpaque
  simp only [colors, List.forall_mem_append, List.forall_mem_map] at hopaque
  simp only [shape, List.forall_mem_cons]
  exact ⟨ColorTable.keeps hl hm hp.keyed.1 hopaque.1.1, ColorTable.keeps hl hm hp.keyed.2 hopaque.1.2,
    by simpa [hp.opacity] using hcolor.2⟩

theorem read_lists (hl : layer.Conforms) (hm : mixing.Documented) {p : Palette}
    (hp : p.Readable layer) {keep : String → Bool} {j : Json}
    (h : Json.Lists keep gives ((codec layer mixing).write p) j) (hs : j.skipFault = none) :
    ∃ p', (codec layer mixing).read j = .ok p' ∧
      p'.Agrees ((shape layer mixing).restrict keep p) := by
  have hopaque := hp.isOpaque
  simp only [colors, List.forall_mem_append, List.forall_mem_map] at hopaque
  have hnodes : ∀ w, Json.Reordered ((ColorTable.codec layer mixing).write p.nodeColors) w →
      w.skipFault = none → ∃ t, (ColorTable.codec layer mixing).read w = .ok t ∧
        t.Perm p.nodeColors :=
    fun w hw _ ↦ ColorTable.read_reordered hl hm hp.keyed.1 hopaque.1.1 hw
  have hedges : ∀ w, Json.Reordered ((ColorTable.codec layer mixing).write p.edgeColors) w →
      w.skipFault = none → ∃ t, (ColorTable.codec layer mixing).read w = .ok t ∧
        t.Perm p.edgeColors :=
    fun w hw _ ↦ ColorTable.read_reordered hl hm hp.keyed.2 hopaque.1.2 hw
  have hothers : ∀ f ∈ (shape layer mixing).fields.drop 2, ∀ w,
      gives f.name (f.codec.write (f.get p)) w → w.skipFault = none →
        f.codec.read w = .ok (f.get p) := by
    intro f hf w hw _
    have hgives : gives f.name = Json.Itself f.name := by
      revert f
      simp [shape, gives]
    rw [hgives] at hw
    obtain rfl : w = _ := hw
    exact (keeps_get hl hm hp f (List.mem_of_mem_drop hf)).1
  have hread : ∀ f ∈ (shape layer mixing).fields, ∀ w, gives f.name (f.codec.write (f.get p)) w →
      w.skipFault = none → ∃ v, f.codec.read w = .ok v := by
    rw [← List.take_append_drop 2 (shape layer mixing).fields, List.forall_mem_append]
    refine ⟨?_, fun f hf w hw hws ↦ ⟨_, hothers f hf w hw hws⟩⟩
    refine List.forall_mem_cons.mpr ⟨fun w hw hws ↦ ?_, List.forall_mem_singleton.mpr fun w hw hws ↦ ?_⟩
    · obtain ⟨t, ht, -⟩ := hnodes w hw hws
      exact ⟨t, ht⟩
    · obtain ⟨t, ht, -⟩ := hedges w hw hws
      exact ⟨t, ht⟩
  obtain ⟨y, hy, hfields⟩ := hl.read_lists plain h hs hread
  have hkept : ∀ f ∈ (shape layer mixing).fields, _ := fun f hf ↦
    RecordShape.get_restrict hf keep p
  have hrest : ∀ f ∈ (shape layer mixing).fields.drop 2,
      f.get y = f.get ((shape layer mixing).restrict keep p) := fun f hf ↦ by
    have hmem := List.mem_of_mem_drop hf
    rw [hkept f hmem]
    exact (hfields f hmem).eq (hothers f hf)
  generalize (shape layer mixing).restrict keep p = q at hkept hrest
  simp only [shape, List.forall_mem_cons] at hkept hfields
  refine ⟨y, hy, ?_, ?_, ?_⟩
  · rw [hkept.1]
    exact hfields.1.rel (.refl _) hnodes
  · rw [hkept.2.1]
    exact hfields.2.1.rel (.refl _) hedges
  · refine (shape layer mixing).ext _ _ ?_
    simpa [shape] using hrest

end Palette

namespace Config

structure Kept where
  top : String → Bool
  zoom : String → Bool
  slider : String → Bool
  metrics : String → Bool
  style : String → Bool

/-- What a listing of a configuration gives for a member: a listing of the object that it is, and
other members as they are. -/
def gives (kept : Kept) (key : String) : Json → Json → Prop :=
  match key with
  | "zoom" => Json.Lists kept.zoom Json.Itself
  | "slider" => Json.Lists kept.slider Json.Itself
  | "metrics" => Json.Lists kept.metrics Json.Itself
  | "style" => Json.Lists kept.style Palette.gives
  | _ => Json.Itself key

def numbers (c : Config Float) : List Float := c.zoom.numbers ++ c.slider.numbers ++ c.metrics.numbers

variable (layer mixing) in
/-- The configuration with the standard value of each field that is not kept. -/
def restrict (kept : Kept) (c : Config Float) : Config Float :=
  (shape layer mixing).restrict kept.top { c with
    zoom := (ZoomPolicy.shape layer).restrict kept.zoom c.zoom
    slider := (SliderTrack.shape layer).restrict kept.slider c.slider
    metrics := (NodeMetrics.shape layer).restrict kept.metrics c.metrics
    palette := (Palette.shape layer mixing).restrict kept.style c.palette }

structure Agrees (c d : Config Float) : Prop where
  palette : c.palette.Agrees d.palette
  rest : { c with palette := d.palette } = d

structure Readable (layer : JsonLayer) (c : Config Float) : Prop where
  zoom : ∀ x ∈ c.zoom.numbers, layer.Keeps layer.double x
  slider : ∀ x ∈ c.slider.numbers, layer.Keeps layer.double x
  metrics : ∀ x ∈ c.metrics.numbers, layer.Keeps layer.double x
  palette : c.palette.Readable layer

theorem plain : (shape layer mixing).Plain := by simp [RecordShape.Plain, shape]

theorem keeps_get (hl : layer.Conforms) (hm : mixing.Documented) {c : Config Float}
    (hc : c.Readable layer) : ∀ f ∈ (shape layer mixing).fields, layer.Keeps f.codec (f.get c) := by
  have hstatuses : layer.Keeps (layer.list layer.string) c.terminalStatuses := by
    rw [JsonLayer.Keeps, hl.write_list, hl.write_string]
    exact ⟨hl.read_strings _, Json.sound_list.mpr (by simp)⟩
  have hmode : layer.Keeps layer.bool c.editMode := by
    rw [JsonLayer.Keeps, hl.write_bool]
    exact ⟨hl.read_bool _, by simp⟩
  simp only [shape, List.forall_mem_cons, List.not_mem_nil, false_imp_iff, implies_true, and_true]
  exact ⟨hl.keeps_record ZoomPolicy.plain (ZoomPolicy.keeps_get hc.zoom),
    hl.keeps_record SliderTrack.plain (SliderTrack.keeps_get hc.slider),
    hl.keeps_record NodeMetrics.plain (NodeMetrics.keeps_get hc.metrics),
    hl.keeps_record Palette.plain (Palette.keeps_get hl hm hc.palette), hstatuses, hmode⟩

theorem read_lists (hl : layer.Conforms) (hm : mixing.Documented) {c : Config Float}
    (hc : c.Readable layer) {kept : Kept} {j : Json}
    (h : Json.Lists kept.top (gives kept) ((codec layer mixing).write c) j) (hs : j.skipFault = none) :
    ∃ c', (codec layer mixing).read j = .ok c' ∧ c'.Agrees (c.restrict layer mixing kept) := by
  have hkeeps : ∀ f ∈ (shape layer mixing).fields, layer.Keeps f.codec (f.get c) :=
    keeps_get hl hm hc
  simp only [shape, List.forall_mem_cons] at hkeeps
  obtain ⟨-, -, -, -, ⟨hstatuses, -⟩, ⟨hmode, -⟩, -⟩ := hkeeps
  have hzoom (w) (hw : Json.Lists kept.zoom Json.Itself _ w) (hws : w.skipFault = none) :=
    hl.read_lists_itself ZoomPolicy.plain (ZoomPolicy.keeps_get hc.zoom) hw hws
  have hslider (w) (hw : Json.Lists kept.slider Json.Itself _ w) (hws : w.skipFault = none) :=
    hl.read_lists_itself SliderTrack.plain (SliderTrack.keeps_get hc.slider) hw hws
  have hmetrics (w) (hw : Json.Lists kept.metrics Json.Itself _ w) (hws : w.skipFault = none) :=
    hl.read_lists_itself NodeMetrics.plain (NodeMetrics.keeps_get hc.metrics) hw hws
  have hstyle (w) (hw : Json.Lists kept.style Palette.gives _ w) (hws : w.skipFault = none) :=
    Palette.read_lists hl hm hc.palette hw hws
  have hread : ∀ f ∈ (shape layer mixing).fields, ∀ w, gives kept f.name (f.codec.write (f.get c)) w →
      w.skipFault = none → ∃ v, f.codec.read w = .ok v := by
    simp only [shape, List.forall_mem_cons, List.not_mem_nil, false_imp_iff, implies_true, and_true]
    refine ⟨fun w hw hws ↦ ⟨_, hzoom w hw hws⟩, fun w hw hws ↦ ⟨_, hslider w hw hws⟩,
      fun w hw hws ↦ ⟨_, hmetrics w hw hws⟩, fun w hw hws ↦ (hstyle w hw hws).imp fun _ h ↦ h.1,
      fun w hw _ ↦ ⟨_, hw ▸ hstatuses⟩, fun w hw _ ↦ ⟨_, hw ▸ hmode⟩⟩
  obtain ⟨d, hd, hfields⟩ := hl.read_lists plain h hs hread
  have hkept : ∀ f ∈ (shape layer mixing).fields, f.get (c.restrict layer mixing kept) = _ :=
    fun f hf ↦ RecordShape.get_restrict hf kept.top _
  generalize c.restrict layer mixing kept = c' at hkept
  simp only [shape, List.forall_mem_cons] at hkept hfields
  obtain ⟨hzoom', hslider', hmetrics', hstyle', hstatuses', hmode', -⟩ := hkept
  obtain ⟨dzoom, dslider, dmetrics, dstyle, dstatuses, dmode, -⟩ := hfields
  refine ⟨d, hd, ?_, ?_⟩
  · rw [hstyle']
    exact dstyle.rel (.refl _) hstyle
  · refine Config.ext ?_ ?_ ?_ rfl ?_ ?_
    · rw [hzoom']
      exact dzoom.eq hzoom
    · rw [hslider']
      exact dslider.eq hslider
    · rw [hmetrics']
      exact dmetrics.eq hmetrics
    · rw [hstatuses']
      exact dstatuses.eq fun w hw _ ↦ hw ▸ hstatuses
    · rw [hmode']
      exact dmode.eq fun w hw _ ↦ hw ▸ hmode

/-- With a library of JSON that does as it is documented to, a text that lists some of the fields of
a configuration, in any order and among unknown ones, is decoded to the configuration with the
standard values of the others. The text that is written for a configuration is decoded to it. -/
theorem ofText_lists (hl : layer.Conforms) (hm : mixing.Documented) (c : Config Float)
    (hc : ∀ x ∈ c.numbers, layer.ReadsBack layer.double x)
    (hd : layer.ReadsBack layer.single c.palette.disabledOpacity)
    (ho : ∀ k ∈ c.palette.colors, k.isOpaque = true) (hk : c.palette.Keyed) :
    (∀ kept j s, Json.Lists kept.top (gives kept) ((codec layer mixing).write c) j →
      Json.Writes layer.accepts j s →
        ∃ c', ofText layer mixing s = .ok c' ∧ c'.Agrees (c.restrict layer mixing kept)) ∧
    ofText layer mixing (text layer mixing c) = .ok c := by
  have hreadable : c.Readable layer := by
    simp only [numbers, List.forall_mem_append] at hc
    exact ⟨fun x hx ↦ (hc.1.1 x hx).keeps, fun x hx ↦ (hc.1.2 x hx).keeps,
      fun x hx ↦ (hc.2 x hx).keeps, hk, fun k hk ↦ by simpa [Color.isOpaque] using ho k hk, hd.keeps⟩
  refine ⟨fun kept j s hj hs ↦ ?_, ?_⟩
  · rw [ofText, hl.decode_eq _ hs]
    exact read_lists hl hm hreadable hj hs.skipFault
  · obtain ⟨hread, husable⟩ : layer.Keeps (codec layer mixing) c :=
      hl.keeps_record plain (keeps_get hl hm hreadable)
    rw [ofText, text, hl.decode_eq _ (hl.writes_text husable)]
    exact hread

theorem ofText_lists_zoom :
    JsonLayer.standard.Conforms ∧ ColorMixing.standard.Documented ∧
    (∃ c', ofText .standard .standard (Json.record [("q", .null), ("zoom", .record [("r", .list []),
      ("max_zoom", JsonLayer.standard.double.write 12.5)])]).text = .ok c' ∧
      c'.Agrees { standard with zoom := { ZoomPolicy.standard with maxZoom := 12.5 } }) ∧
    ofText .standard .standard (text .standard .standard { standard with
      zoom := { ZoomPolicy.standard with minZoom := 0.5, maxZoom := 12.5 }, editMode := false }) =
        .ok { standard with
          zoom := { ZoomPolicy.standard with minZoom := 0.5, maxZoom := 12.5 }, editMode := false } := by
  obtain ⟨hlists, hwritten⟩ := ofText_lists JsonLayer.standard_conforms
    ColorMixing.standard_documented { standard with
      zoom := { ZoomPolicy.standard with minZoom := 0.5, maxZoom := 12.5 }, editMode := false }
    (by decide +kernel) (by decide +kernel) (by decide) ⟨.nil, .nil⟩
  have hmax : (JsonLayer.standard.double.write 12.5).Usable JsonLayer.standard.accepts :=
    (by decide +kernel : JsonLayer.standard.ReadsBack JsonLayer.standard.double 12.5).keeps.2
  let kept : Kept := ⟨(· = "zoom"), (· = "max_zoom"), fun _ ↦ true, fun _ ↦ true, fun _ ↦ true⟩
  let zoom : Json := .record [("r", .list []), ("max_zoom", JsonLayer.standard.double.write 12.5)]
  have hzoom : Json.Lists kept.zoom Json.Itself ((ZoomPolicy.codec .standard).write
      { ZoomPolicy.standard with minZoom := 0.5, maxZoom := 12.5 }) zoom :=
    @Json.Lists.mk _ _ _ [_] [("r", .list [])] _ (.cons ⟨rfl, rfl⟩ .nil)
      (by simp [RecordShape.members, ZoomPolicy.shape]) (.swap _ _ _)
  have hconfig : Json.Lists kept.top (gives kept) ((codec .standard .standard).write
      { standard with
        zoom := { ZoomPolicy.standard with minZoom := 0.5, maxZoom := 12.5 }, editMode := false })
      (.record [("q", .null), ("zoom", zoom)]) :=
    @Json.Lists.mk _ _ _ [("zoom", zoom)] [("q", .null)] _ (.cons ⟨rfl, hzoom⟩ .nil)
      (by simp [RecordShape.members, shape]) (.swap _ _ _)
  exact ⟨JsonLayer.standard_conforms, ColorMixing.standard_documented,
    hlists kept _ _ hconfig (Json.writes_text (by simp [zoom, hmax])), hwritten⟩

end Config

end Diagram
