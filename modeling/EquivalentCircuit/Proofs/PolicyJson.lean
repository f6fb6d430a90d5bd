import EquivalentCircuit.Policy.Format
import EquivalentCircuit.Proofs.JsonRecord
import EquivalentCircuit.Proofs.JsonText
import EquivalentCircuit.Proofs.PolicyTrees

/-! Policies written as JSON and read back: the tree of a policy is a plain value. -/

namespace EquivalentCircuit

namespace Json

theorem readsBack_id : ReadsBack (id : Json → Json) where
  members := by
    rintro names ms rfl hd -
    refine ⟨ms, ?_, fun name => Option.map_id'.symm⟩
    change ((record ms).fields? (ms.map Prod.fst)).map (·.members) = some ms
    rw [fields?_record hd (List.Sublist.refl _)]
    rfl
  flag := fun _ => rfl
  name := fun _ _ => rfl
  triple := fun _ _ _ => rfl

/-! The trees of policies are plain. -/

variable {n : Nat}

theorem plain_twoWinding (p : TwoWindingPolicy) : Plain (n + 1) p.toTree :=
  .record (List.forall_mem_map.1 TwoWindingPolicy.isWord_names) (by
    simpa [PolicyTarget.ofName, PolicyTarget.ofFlag] using
      ⟨Plain.text (TapPlacement.isWord_name _), Plain.text (ShuntPlacement.isWord_name _),
        Plain.text (RatioPlacement.isWord_name _), Plain.bool _⟩)

theorem plain_leg (p : LegPolicy) : Plain (n + 1) p.toTree :=
  .record (List.forall_mem_map.1 LegPolicy.isWord_names) (by
    simpa [PolicyTarget.ofName, PolicyTarget.ofFlag] using
      ⟨Plain.bool _, Plain.text (LegShunt.isWord_name _), Plain.bool _⟩)

theorem plain_threeWinding (p : ThreeWindingPolicy) : Plain (n + 3) p.toTree :=
  .record (List.forall_mem_map.1 ThreeWindingPolicy.isWord_names) (by
    have hlegs : Plain (n + 2)
        (.list [p.legs.one.toTree, p.legs.two.toTree, p.legs.three.toTree]) :=
      .list (by simpa using ⟨plain_leg _, plain_leg _, plain_leg _⟩)
    simpa [PolicyTarget.ofName] using ⟨Plain.text (StarVoltage.isWord_name _), hlegs⟩)

theorem plain_policy (p : Policy) : Plain 4 p.toTree :=
  .record (List.forall_mem_map.1 Policy.isWord_names) (by
    simpa [PolicyTarget.ofFlag] using
      ⟨plain_twoWinding _, plain_threeWinding _, Plain.bool _⟩)

end Json

/-- A policy is read back from its JSON text. -/
theorem Policy.read?_json (p : Policy) : read? .json (p.text .json) = some p := by
  have hread : Json.read? (p.text .json) = some p.toTree :=
    (Json.plain_policy p).read?_pretty (by decide)
  rw [read?, hread]
  exact Json.readsBack_id.ofTree?_toTree p

end EquivalentCircuit
