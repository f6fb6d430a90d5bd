import EquivalentCircuit.Proofs.BlockTexts
import EquivalentCircuit.Proofs.FlowNodes

/-! Texts of nodes as documents: the tokens of a node that is laid out on lines are built as the
node again, so it is read back from its text. -/

namespace EquivalentCircuit

namespace Yaml

open Build

section Building

variable {fuel : Nat} {us : List Token} {anchors : List (String × Nat)}
  {handles : List (String × Tag)}

theorem buildBlockEntries_end :
    buildBlockEntries (fuel + 1) ⟨.blockEnd :: us, anchors, handles⟩ =
      some ([], ⟨us, anchors, handles⟩) :=
  rfl

theorem buildBlockEntries_key (k : String) :
    buildBlockEntries (fuel + 3) ⟨.key :: .scalar .plain k :: .value :: us, anchors, handles⟩ =
      (buildUnless .entry [.key, .value, .blockEnd] (fuel + 2) >>= fun v =>
        buildBlockEntries (fuel + 2) >>= fun es => pure ((.plain k, v) :: es))
          ⟨us, anchors, handles⟩ :=
  rfl

theorem buildBareItems_mapping :
    buildBareItems (fuel + 2) ⟨.blockEntry :: .blockMappingStart :: us, anchors, handles⟩ =
      (buildNode .block fuel >>= fun v =>
        buildBareItems (fuel + 1) >>= fun vs => pure (v :: vs))
          ⟨.blockMappingStart :: us, anchors, handles⟩ :=
  rfl

theorem buildBareItems_of_head? (h : us.head? ≠ some .blockEntry) :
    buildBareItems (fuel + 1) ⟨us, anchors, handles⟩ = some ([], ⟨us, anchors, handles⟩) := by
  rw [buildBareItems, bind_of_eq (tokenIf_of_head? h)]
  rfl

theorem buildNode_blockMapping {place : Place} (hplace : place ≠ .flow) :
    buildNode place (fuel + 1) ⟨.blockMappingStart :: us, anchors, handles⟩ =
      (buildBlockEntries fuel >>= fun es => pure (.mapping none es)) ⟨us, anchors, handles⟩ := by
  cases place with
  | flow => exact absurd rfl hplace
  | block | entry => rfl

theorem buildNode_bare :
    buildNode .entry (fuel + 1) ⟨.blockEntry :: us, anchors, handles⟩ =
      (buildBareItems fuel >>= fun vs => pure (.sequence none vs))
        ⟨.blockEntry :: us, anchors, handles⟩ :=
  rfl

end Building

def BuildsInside : Node → Prop
  | .mapping _ es => ∀ ⦃fuel us anchors handles⦄, 2 * (entryTokens es).length + 1 ≤ fuel →
      buildBlockEntries fuel ⟨entryTokens es ++ .blockEnd :: us, anchors, handles⟩ =
        some (es, ⟨us, anchors, handles⟩)
  | .sequence _ vs => ∀ ⦃fuel us anchors handles⦄, us.head? ≠ some .blockEntry →
      2 * (itemTokens vs).length + 1 ≤ fuel →
        buildBareItems fuel ⟨itemTokens vs ++ us, anchors, handles⟩ =
          some (vs, ⟨us, anchors, handles⟩)
  | _ => True

/-- A value behind a key is built from its tokens; an item after them would belong to it. -/
def BuildsValue (v : Node) : Prop :=
  ∀ ⦃fuel us anchors handles⦄, us.head? ≠ some .blockEntry →
    2 * (blockTokens v).length + 3 ≤ fuel →
      buildUnless .entry [.key, .value, .blockEnd] fuel ⟨blockTokens v ++ us, anchors, handles⟩ =
        some (v, ⟨us, anchors, handles⟩)

theorem buildsValue_word (w : String) : BuildsValue (.plain w) := by
  intro fuel us anchors handles _ hfuel
  obtain ⟨fuel, rfl⟩ : ∃ f, fuel = f + 2 := ⟨fuel - 2, by omega⟩
  rfl

theorem BuildsInside.buildNode_mapping {es : List (Node × Node)}
    (h : BuildsInside (.mapping none es)) {place : Place} (hplace : place ≠ .flow) {fuel : Nat}
    {us : List Token} {anchors : List (String × Nat)} {handles : List (String × Tag)}
    (hfuel : 2 * (blockTokens (.mapping none es)).length ≤ fuel) :
    buildNode place fuel ⟨blockTokens (.mapping none es) ++ us, anchors, handles⟩ =
      some (.mapping none es, ⟨us, anchors, handles⟩) := by
  simp only [blockTokens, List.length_cons, List.length_append, List.length_nil] at hfuel
  obtain ⟨fuel, rfl⟩ : ∃ f, fuel = f + 1 := ⟨fuel - 1, by omega⟩
  rw [blockTokens, List.cons_append, List.append_assoc, List.singleton_append,
    buildNode_blockMapping hplace, bind_of_eq (h (by omega))]
  rfl

theorem buildsValue_mapping {es : List (Node × Node)} (h : BuildsInside (.mapping none es)) :
    BuildsValue (.mapping none es) := by
  intro fuel us anchors handles _ hfuel
  obtain ⟨fuel, rfl⟩ : ∃ f, fuel = f + 1 := ⟨fuel - 1, by omega⟩
  have hbuild := @BuildsInside.buildNode_mapping es h .entry (by decide) fuel us anchors handles
    (by omega)
  rw [← hbuild, blockTokens, List.cons_append]
  exact buildUnless_of_contains rfl

theorem buildsValue_sequence {v : Node} {vs : List Node}
    (h : BuildsInside (.sequence none (v :: vs))) : BuildsValue (.sequence none (v :: vs)) := by
  intro fuel us anchors handles hus hfuel
  obtain ⟨fuel, rfl⟩ : ∃ f, fuel = f + 2 := ⟨fuel - 2, by omega⟩
  simp only [blockTokens] at hfuel ⊢
  have hitems := @h fuel us anchors handles hus (by omega)
  rw [itemTokens, List.cons_append] at hitems ⊢
  rw [buildUnless_of_contains rfl, buildNode_bare, bind_of_eq hitems]
  rfl

theorem buildsInside_entry (k : String) {v : Node} {es : List (Node × Node)} (hv : BuildsValue v)
    (hes : BuildsInside (.mapping none es)) :
    BuildsInside (.mapping none ((.plain k, v) :: es)) := by
  intro fuel us anchors handles hfuel
  have htokens : entryTokens ((.plain k, v) :: es) =
    .key :: .scalar .plain k :: .value :: (blockTokens v ++ entryTokens es) := rfl
  have hnext : (entryTokens es ++ .blockEnd :: us).head? ≠ some .blockEntry := by
    cases es with
    | nil => nofun
    | cons e es => nofun
  simp only [htokens, List.length_cons, List.length_append] at hfuel
  obtain ⟨fuel, rfl⟩ : ∃ f, fuel = f + 3 := ⟨fuel - 3, by omega⟩
  simp only [htokens, List.cons_append]
  rw [buildBlockEntries_key, List.append_assoc, bind_of_eq (hv hnext (by omega)),
    bind_of_eq (hes (by omega))]
  rfl

theorem buildsInside_item {es : List (Node × Node)} {vs : List Node}
    (h : BuildsInside (.mapping none es)) (hvs : BuildsInside (.sequence none vs)) :
    BuildsInside (.sequence none (.mapping none es :: vs)) := by
  intro fuel us anchors handles hus hfuel
  simp only [itemTokens, List.length_cons, List.length_append] at hfuel
  obtain ⟨fuel, rfl⟩ : ∃ f, fuel = f + 2 := ⟨fuel - 2, by omega⟩
  have hitem := @BuildsInside.buildNode_mapping es h .block (by decide) fuel
    (itemTokens vs ++ us) anchors handles (by omega)
  rw [blockTokens, List.cons_append] at hitem
  rw [itemTokens, blockTokens, List.cons_append, List.cons_append, List.cons_append,
    List.append_assoc _ (itemTokens vs), buildBareItems_mapping, bind_of_eq hitem,
    bind_of_eq (hvs hus (by omega))]
  rfl

theorem Laid.buildsInside {c : Nat} {v : Node} {ls : List Line} (h : Laid c v ls) :
    BuildsInside v := by
  induction h with
  | noEntries =>
    intro fuel us anchors handles hfuel
    obtain ⟨fuel, rfl⟩ : ∃ f, fuel = f + 1 := ⟨fuel - 1, by omega⟩
    exact buildBlockEntries_end
  | @word c k w es ls _ _ _ ih => exact buildsInside_entry k (buildsValue_word w) ih
  | @nest c k v es l ls ms hk value _ ihv ih =>
    refine buildsInside_entry k ?_ ih
    cases value with
    | word | nest => exact buildsValue_mapping ihv
    | item => exact buildsValue_sequence ihv
  | noItems =>
    intro fuel us anchors handles hus hfuel
    obtain ⟨fuel, rfl⟩ : ∃ f, fuel = f + 1 := ⟨fuel - 1, by omega⟩
    exact buildBareItems_of_head? hus
  | item _ _ ihv ih => exact buildsInside_item ihv ih

/-- A mapping laid out on lines is read back from its text. -/
theorem read?_text {es : List (Node × Node)} {l : Line} {ls : List Line}
    (h : Laid 0 (.mapping none es) (l :: ls)) :
    read? (Node.text (.mapping none es)) = some (.mapping none es) := by
  have hbuild := @BuildsInside.buildNode_mapping es h.buildsInside .block (by decide)
    (2 * (blockTokens (.mapping none es)).length + 2) [] [] defaultHandles (by omega)
  rw [List.append_nil] at hbuild
  exact read?_eq (tokens?_text h) (.inr rfl) hbuild

end Yaml

end EquivalentCircuit
