import EquivalentCircuit.Policy.Format
import EquivalentCircuit.Proofs.BlockNodes
import EquivalentCircuit.Proofs.PolicyJson

/-! Policies read as YAML, from their own texts and from JSON texts. In both, the nodes of a
document differ from the tree of a policy at most in the style of the names. -/

namespace EquivalentCircuit

namespace Yaml

open PolicyTarget

section Views

variable {ν : Type}

theorem lookup_map_snd {β γ : Type} (g : β → γ) (ms : List (String × β)) (name : String) :
    (ms.map fun m => (m.1, g m.2)).lookup name = (ms.lookup name).map g := by
  induction ms with
  | nil => rfl
  | cons m ms ih =>
    obtain ⟨n, v⟩ := m
    rw [List.map_cons, lookup_cons_eq_ite, lookup_cons_eq_ite, ih]
    split <;> rfl

theorem mapM_keys (document : Node) (style : ScalarStyle) (node : ν → Node)
    (ms : List (String × ν)) :
    ((ms.map fun m => (Node.scalar none none style m.1, node m.2)).mapM fun e =>
        (Part.key? ⟨document, e.1⟩).map (·, Part.mk document e.2)) =
      some (ms.map fun m => (m.1, Part.mk document (node m.2))) := by
  induction ms with
  | nil => rfl
  | cons m ms ih =>
    rw [List.map_cons, List.mapM_cons, ih]
    rfl

theorem members?_mapping (document : Node) (style : ScalarStyle) (node : ν → Node)
    {ms : List (String × ν)} (hd : (ms.map Prod.fst).Nodup) :
    Part.members? (ms.map Prod.fst) ⟨document, .mapping none (ms.map fun m =>
        (.scalar none none style m.1, node m.2))⟩ =
      some (ms.map fun m => (m.1, Part.mk document (node m.2))) := by
  have hnames : (ms.map fun m => (m.1, Part.mk document (node m.2))).map Prod.fst =
      ms.map Prod.fst := by
    rw [List.map_map]
    rfl
  have hknown : (ms.map fun m => (m.1, Part.mk document (node m.2))).filter
      (fun m => (ms.map Prod.fst).contains m.1) =
        ms.map fun m => (m.1, Part.mk document (node m.2)) :=
    List.filter_eq_self.2 fun m hm =>
      List.contains_iff_mem.2 (hnames ▸ List.mem_map_of_mem hm)
  rw [← hnames] at hd
  change (List.mapM _ _ >>= fun ms' => _) = _
  rw [mapM_keys, Option.bind_eq_bind, Option.bind_some, hknown]
  exact congrArg (fun r : Option Unit => r >>= fun _ => some _) (if_pos hd)

/-- Trees as nodes of a document, in which names stand in some style. -/
structure IsNode [PolicyTarget ν] (node : ν → Node) : Prop where
  members : ∃ style, ∀ ms, node (ofMembers ms) =
    .mapping none (ms.map fun m => (.scalar none none style m.1, node m.2))
  flag : ∀ b, node (ofFlag b) = .plain (if b then "true" else "false")
  name : ∀ s, ∃ style, node (ofName s) = .scalar none none style s
  triple : ∀ vs, node (ofTriple vs) = .sequence none (vs.toList.map node)

theorem IsNode.readsBack [PolicyTarget ν] {node : ν → Node} (h : IsNode node) (document : Node) :
    ReadsBack fun v => Part.mk document (node v) where
  members := by
    rintro names ms rfl hd -
    obtain ⟨style, hmembers⟩ := h.members
    refine ⟨_, ?_, lookup_map_snd _ _⟩
    rw [hmembers]
    exact members?_mapping document style node hd
  flag b := by
    change Part.flag? ⟨document, node (ofFlag b)⟩ = some b
    rw [h.flag]
    cases b <;> rfl
  name s _ := by
    obtain ⟨style, hname⟩ := h.name s
    change Part.name? ⟨document, node (ofName s)⟩ = some s
    rw [hname]
    rfl
  triple l m n := by
    change Part.triple? ⟨document, node (ofTriple _)⟩ = _
    rw [h.triple]
    rfl

theorem isNode_id : IsNode (id : Node → Node) where
  members := ⟨.plain, fun _ => rfl⟩
  flag _ := rfl
  name _ := ⟨.plain, rfl⟩
  triple _ := rfl

theorem isNode_flowNode : IsNode flowNode where
  members := ⟨.quoted, fun ms => congrArg (Node.mapping none) (flowEntries_eq ms)⟩
  flag _ := rfl
  name _ := ⟨.quoted, rfl⟩
  triple _ := congrArg (Node.sequence none) (flowItems_eq _)

end Views

/-! The lines of policies. -/

theorem isWord_flag (b : Bool) : IsWord (if b then "true" else "false") := by
  cases b <;> decide

theorem laid_twoWinding (c : Nat) (p : TwoWindingPolicy) : ∃ l ls, Laid c p.toTree (l :: ls) := by
  have hnames := TwoWindingPolicy.isWord_names
  simp only [TwoWindingPolicy.names, List.forall_mem_cons] at hnames
  obtain ⟨htaps, hshunt, hratio, hnegate, -⟩ := hnames
  exact ⟨_, _, .word htaps (TapPlacement.isWord_name _) (.word hshunt (ShuntPlacement.isWord_name _)
    (.word hratio (RatioPlacement.isWord_name _) (.word hnegate (isWord_flag _) .noEntries)))⟩

theorem laid_leg (c : Nat) (p : LegPolicy) : ∃ l ls, Laid c p.toTree (l :: ls) := by
  have hnames := LegPolicy.isWord_names
  simp only [LegPolicy.names, List.forall_mem_cons] at hnames
  obtain ⟨htaps, hshunt, hratio, -⟩ := hnames
  exact ⟨_, _, .word htaps (isWord_flag _) (.word hshunt (LegShunt.isWord_name _)
    (.word hratio (isWord_flag _) .noEntries))⟩

theorem laid_threeWinding (c : Nat) (p : ThreeWindingPolicy) :
    ∃ l ls, Laid c p.toTree (l :: ls) := by
  obtain ⟨l₁, ls₁, h₁⟩ := laid_leg (c + 2) p.legs.one
  obtain ⟨l₂, ls₂, h₂⟩ := laid_leg (c + 2) p.legs.two
  obtain ⟨l₃, ls₃, h₃⟩ := laid_leg (c + 2) p.legs.three
  have hnames := ThreeWindingPolicy.isWord_names
  simp only [ThreeWindingPolicy.names, List.forall_mem_cons] at hnames
  obtain ⟨hstar, hlegs, -⟩ := hnames
  exact ⟨_, _, .word hstar (StarVoltage.isWord_name _)
    (.nest hlegs (.item h₁ (.item h₂ (.item h₃ .noItems))) .noEntries)⟩

theorem laid_policy (p : Policy) : ∃ l ls, Laid 0 p.toTree (l :: ls) := by
  obtain ⟨l, ls, htwo⟩ := laid_twoWinding 2 p.twoWinding
  obtain ⟨l', ls', hthree⟩ := laid_threeWinding 2 p.threeWinding
  have hnames := Policy.isWord_names
  simp only [Policy.names, List.forall_mem_cons] at hnames
  obtain ⟨hxfmr2, hxfmr3, hclocks, -⟩ := hnames
  exact ⟨_, _, .nest hxfmr2 htwo
    (.nest hxfmr3 hthree (.word hclocks (isWord_flag _) .noEntries))⟩

end Yaml

namespace Policy

/-- A policy is read back from its YAML text. -/
theorem read?_yaml (p : Policy) : read? .yaml (p.text .yaml) = some p := by
  obtain ⟨l, ls, h⟩ := Yaml.laid_policy p
  have hread : Yaml.read? (p.text .yaml) = some p.toTree := Yaml.read?_text h
  rw [read?, hread]
  exact (Yaml.isNode_id.readsBack _).ofTree?_toTree p

/-- The JSON text of a policy is a YAML text of the same policy. -/
theorem read?_yaml_json (p : Policy) : read? .yaml (p.text .json) = some p := by
  have hread : Yaml.read? (p.text .json) = some (Yaml.flowNode p.toTree) :=
    Yaml.read?_pretty (Json.plain_policy p)
  rw [read?, hread]
  exact (Yaml.isNode_flowNode.readsBack _).ofTree?_toTree p

end Policy

end EquivalentCircuit
