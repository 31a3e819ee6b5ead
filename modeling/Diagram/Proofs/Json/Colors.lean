import Diagram.Config.Json
import Diagram.Proofs.Coloring
import Diagram.Proofs.Failing
import Diagram.Proofs.Json.Overriding

namespace Diagram

variable {layer : JsonLayer} {mixing : ColorMixing}

theorem Color.keeps (hl : layer.Conforms) (hm : mixing.Documented) {c : Color} (h : c.alpha = 255) :
    layer.Keeps (codec layer mixing) c := by
  simp only [JsonLayer.Keeps, codec, hl.write_string, hl.read_string]
  refine ⟨bind_eq_ok.mpr ⟨c.text, rfl, ?_⟩, Json.sound_string _⟩
  rw [ofText_text hm h]

namespace ColorTable

theorem write_eq (hl : layer.Conforms) (t : ColorTable) : (codec layer mixing).write t =
    .record (t.map fun e ↦ (e.1, (Color.codec layer mixing).write e.2)) := hl.write_table _ t

theorem keeps (hl : layer.Conforms) (hm : mixing.Documented) {t : ColorTable}
    (hn : (t.map Prod.fst).Nodup) (ho : ∀ e ∈ t, e.2.alpha = 255) :
    layer.Keeps (codec layer mixing) t := by
  have hcolor : ∀ e ∈ t, layer.Keeps (Color.codec layer mixing) e.2 := fun e he ↦
    Color.keeps hl hm (ho e he)
  rw [JsonLayer.Keeps, write_eq hl]
  refine ⟨hl.read_table _ hn (List.forall₂_map_left_iff.mpr (List.forall₂_same.mpr fun e he ↦
    ⟨rfl, (hcolor e he).1⟩)), Json.sound_record.mpr (List.forall_mem_map.mpr fun e he ↦ ?_)⟩
  exact (hcolor e he).2

theorem read_reordered (hl : layer.Conforms) (hm : mixing.Documented) {t : ColorTable}
    (hn : (t.map Prod.fst).Nodup) (ho : ∀ e ∈ t, e.2.alpha = 255) {w : Json}
    (hw : Json.Reordered ((codec layer mixing).write t) w) :
    ∃ t' : ColorTable, (codec layer mixing).read w = .ok t' ∧ t'.Perm t := by
  obtain ⟨members, members', hv, rfl, hperm⟩ := hw
  rw [write_eq hl] at hv
  obtain ⟨rfl, -⟩ := Json.object.inj hv
  have hself : List.Forall₂ (fun m e ↦ m = (e.1, (Color.codec layer mixing).write e.2))
      (t.map fun e ↦ (e.1, (Color.codec layer mixing).write e.2)) t :=
    List.forall₂_map_left_iff.mpr (List.forall₂_same.mpr fun _ _ ↦ rfl)
  obtain ⟨t', hm', ht'⟩ := List.perm_comp_forall₂ hperm hself
  have hentries : members' = t'.map fun e ↦ (e.1, (Color.codec layer mixing).write e.2) := by
    rwa [← List.forall₂_eq_eq_eq, List.forall₂_map_right_iff]
  refine ⟨t', ?_, ht'⟩
  obtain ⟨hread, -⟩ := keeps hl hm ((ht'.map Prod.fst).nodup_iff.mpr hn) fun e he ↦
    ho e (ht'.mem_iff.mp he)
  rwa [write_eq hl, ← hentries] at hread

end ColorTable

end Diagram
