import EquivalentCircuit.Proofs.JsonRecord
import EquivalentCircuit.TapChanger.Codec

/-! Tap changers and tap tables written and read back. Infinities and what is no number are written
as null, so a value comes back exactly if its numbers are finite; those of a value that was read
are. -/

namespace EquivalentCircuit

variable {α : Type}

/-! The numbers of a value, apart from counts and positions. -/

def TapStep.numbers (s : TapStep α) : List α :=
  [s.rho, s.angle.value, s.rdr, s.rdx, s.rdg, s.rdb]

def Regulation.numbers (r : Regulation α) : List α := [r.targetValue, r.targetDeadband]

def TapChanger.numbers (t : TapChanger α) : List α :=
  t.steps.flatMap TapStep.numbers ++ t.regulation.toList.flatMap Regulation.numbers

def TapTable.numbers : TapTable α → List α
  | .explicit _ _ steps => steps.flatMap TapStep.numbers
  | .linearRatio _ increment | .linearPhase _ increment | .symmetricalPhase _ increment =>
    [increment]
  | .asymmetricalPhase _ increment angle => [increment, angle]

def TapChangerSpec.numbers (s : TapChangerSpec α) : List α :=
  s.table.numbers ++ s.regulation.toList.flatMap Regulation.numbers

def AllFinite (l : List Float) : Prop := ∀ x ∈ l, x.isFinite = true

instance (l : List Float) : Decidable (AllFinite l) := inferInstanceAs (Decidable (∀ x ∈ l, _))

namespace AllFinite

variable {β : Type} {x : Float} {l m : List Float} {numbers : β → List Float}

@[simp] theorem nil : AllFinite [] := List.forall_mem_nil _

@[simp] theorem cons_iff : AllFinite (x :: l) ↔ x.isFinite = true ∧ AllFinite l :=
  List.forall_mem_cons

@[simp] theorem append_iff : AllFinite (l ++ m) ↔ AllFinite l ∧ AllFinite m :=
  List.forall_mem_append

@[simp] theorem flatMap_iff {bs : List β} :
    AllFinite (bs.flatMap numbers) ↔ ∀ b ∈ bs, AllFinite (numbers b) :=
  List.forall_mem_flatMap

@[simp] theorem flatMap_toList_iff {o : Option β} :
    AllFinite (o.toList.flatMap numbers) ↔ ∀ b ∈ o, AllFinite (numbers b) := by
  simp only [flatMap_iff, Option.mem_toList, Option.mem_def]

end AllFinite

theorem Json.readableItems_iff {items : List Json} :
    readableItems items = true ↔ ∀ j ∈ items, j.readable = true := by
  induction items with
  | nil => exact ⟨fun _ => List.forall_mem_nil _, fun _ => rfl⟩
  | cons j items ih => rw [readableItems, Bool.and_eq_true, ih, List.forall_mem_cons]

namespace TapStep

variable {s : TapStep Float}

theorem ofJson?_toJson (h : AllFinite s.numbers) : ofJson? s.toJson = some s := by
  have hf : s.toJson.fields? names = some _ := Json.fields?_record (by decide) (.refl _)
  simp only [numbers, AllFinite.cons_iff] at h
  obtain ⟨hrho, hangle, hrdr, hrdx, hrdg, hrdb, -⟩ := h
  rw [ofJson?, hf]
  simp [hrho, hangle, hrdr, hrdx, hrdg, hrdb]

theorem readable_toJson (h : AllFinite s.numbers) : s.toJson.readable = true := by
  simp only [numbers, AllFinite.cons_iff] at h
  obtain ⟨hrho, hangle, hrdr, hrdx, hrdg, hrdb, -⟩ := h
  simp [toJson, Json.ofFloat, Json.readable, Json.readableMembers, hrho, hangle, hrdr, hrdx, hrdg,
    hrdb]

theorem reads_ofJson? : Json.Reads ofJson? fun s => AllFinite s.numbers := by
  intro j s hj h
  simp only [ofJson?, Option.bind_eq_bind, Option.bind_eq_some_iff, Option.pure_def,
    Option.some.injEq] at h
  obtain ⟨f, hf, rho, hrho, angle, hangle, rdr, hrdr, rdx, hrdx, rdg, hrdg, rdb, hrdb, rfl⟩ := h
  have hfinite := Fields.finite_of_fields? hj hf
  simp [numbers, hfinite.required_toFloat? hrho, hfinite.defaulted_toFloat? hangle,
    hfinite.defaulted_toFloat? hrdr, hfinite.defaulted_toFloat? hrdx,
    hfinite.defaulted_toFloat? hrdg, hfinite.defaulted_toFloat? hrdb]

end TapStep

@[simp] theorem RegulationMode.ofName?_name (m : RegulationMode) : ofName? m.name = some m := by
  cases m <;> rfl

namespace Regulation

variable {r : Regulation Float}

theorem ofJson?_toJson (h : AllFinite r.numbers) : ofJson? r.toJson = some r := by
  have hf : r.toJson.fields? names = some _ := Json.fields?_record (by decide) (.refl _)
  have hterminal : (Json.ofOption Json.text r.targetTerminal).toOption? Json.toText? = _ :=
    Json.toOption?_ofOption rfl fun _ _ => rfl
  simp only [numbers, AllFinite.cons_iff] at h
  obtain ⟨hvalue, hdeadband, -⟩ := h
  rw [ofJson?, hf]
  simp [hvalue, hdeadband, hterminal]

theorem reads_ofJson? : Json.Reads ofJson? fun r => AllFinite r.numbers := by
  intro j r hj h
  simp only [ofJson?, Option.bind_eq_bind, Option.bind_eq_some_iff, Option.pure_def,
    Option.some.injEq] at h
  obtain ⟨f, hf, mode, -, value, hvalue, deadband, hdeadband, terminal, -, enabled, -, rfl⟩ := h
  have hfinite := Fields.finite_of_fields? hj hf
  simp [numbers, hfinite.required_toFloat? hvalue, hfinite.defaulted_toFloat? hdeadband]

end Regulation

namespace TapChanger

variable {t : TapChanger Float}

/-- Indices are machine words. -/
structure FitsWord (t : TapChanger α) : Prop where
  neutralStep : t.neutralStep < Nat.pow 2 64
  tapPosition : t.tapPosition < Nat.pow 2 64

instance (t : TapChanger α) : Decidable t.FitsWord :=
  decidable_of_iff (t.neutralStep < Nat.pow 2 64 ∧ t.tapPosition < Nat.pow 2 64)
    ⟨fun h => ⟨h.1, h.2⟩, fun h => ⟨h.1, h.2⟩⟩

theorem ofJson?_toJson (h : AllFinite t.numbers) (hw : t.FitsWord) :
    ofJson? t.toJson = some t := by
  have hf : t.toJson.fields? names = some _ := Json.fields?_record (by decide) (.refl _)
  obtain ⟨hsteps, hregulation⟩ := AllFinite.append_iff.1 h
  rw [AllFinite.flatMap_iff] at hsteps
  rw [AllFinite.flatMap_toList_iff] at hregulation
  have hsteps' := Json.toList?_map fun s hs => TapStep.ofJson?_toJson (hsteps s hs)
  have hregulation' := Json.toOption?_ofOption rfl fun r hr =>
    Regulation.ofJson?_toJson (hregulation r hr)
  rw [ofJson?, hf]
  simp [hw.neutralStep, hw.tapPosition, hsteps', hregulation']

end TapChanger

namespace TapTable

variable {t : TapTable Float}

theorem kind_ne_of_mem_members {m : String × Json} (h : m ∈ t.members) : m.1 ≠ "kind" := by
  have hnames : "kind" ∉ t.members.map Prod.fst := by
    cases t <;> simp [members, rangeMembers]
  exact fun hm => hnames (hm ▸ List.mem_map_of_mem h)

theorem readableMembers_members (h : AllFinite t.numbers) :
    Json.readableMembers t.members = true := by
  cases t with
  | explicit low neutral steps =>
    rw [numbers, AllFinite.flatMap_iff] at h
    have hsteps : Json.readableItems (steps.map TapStep.toJson) = true := by
      rw [Json.readableItems_iff, List.forall_mem_map]
      exact fun s hs => TapStep.readable_toJson (h s hs)
    simpa [members, Json.ofInt, Json.readable, Json.readableMembers] using hsteps
  | _ =>
    simp only [numbers, AllFinite.cons_iff] at h
    simp [members, rangeMembers, Json.ofInt, Json.ofFloat, Json.readable, Json.readableMembers, h]

theorem ofJson?_eq_ofKind? (h : AllFinite t.numbers) :
    ofJson? t.toJson = ofKind? t.kind (.record t.members) := by
  have hrest : (("kind", Json.text t.kind) :: t.members).filter (fun m => m.1 ≠ "kind") =
      t.members := by
    rw [List.filter_cons_of_neg (by simp)]
    exact List.filter_eq_self.2 fun m hm => decide_eq_true (kind_ne_of_mem_members hm)
  have hkind : (("kind", Json.text t.kind) :: t.members).filter (fun m => m.1 = "kind") =
      [("kind", Json.text t.kind)] := by
    rw [List.filter_cons_of_pos (by simp)]
    exact congrArg _ (List.filter_eq_nil_iff.2 fun m hm =>
      mt of_decide_eq_true (kind_ne_of_mem_members hm))
  rw [toJson, ofJson?, hrest, hkind, readableMembers_members h]
  rfl

theorem ofKind?_members (h : AllFinite t.numbers) :
    ofKind? t.kind (.record t.members) = some t := by
  cases t with
  | explicit low neutral steps =>
    rw [numbers, AllFinite.flatMap_iff] at h
    have hsteps := Json.toList?_map fun s hs => TapStep.ofJson?_toJson (h s hs)
    have hf : (Json.record (members (.explicit low neutral steps))).fields?
        ["low_tap_position", "neutral_position", "steps"] = some _ :=
      Json.fields?_record (by decide) (.refl _)
    rw [kind, ofKind?, hf]
    simp [members, hsteps]
  | linearRatio r increment =>
    have hf : (Json.record (members (.linearRatio r increment))).fields?
        (rangeNames ++ ["step_voltage_increment"]) = some _ :=
      Json.fields?_record (by decide) (.refl _)
    simp only [numbers, AllFinite.cons_iff] at h
    rw [kind, ofKind?, hf]
    simp [members, range?, rangeMembers, h.1]
  | linearPhase r increment =>
    have hf : (Json.record (members (.linearPhase r increment))).fields?
        (rangeNames ++ ["step_phase_shift_increment"]) = some _ :=
      Json.fields?_record (by decide) (.refl _)
    simp only [numbers, AllFinite.cons_iff] at h
    rw [kind, ofKind?, hf]
    simp [members, range?, rangeMembers, h.1]
  | symmetricalPhase r increment =>
    have hf : (Json.record (members (.symmetricalPhase r increment))).fields?
        (rangeNames ++ ["step_voltage_increment"]) = some _ :=
      Json.fields?_record (by decide) (.refl _)
    simp only [numbers, AllFinite.cons_iff] at h
    rw [kind, ofKind?, hf]
    simp [members, range?, rangeMembers, h.1]
  | asymmetricalPhase r increment angle =>
    have hf : (Json.record (members (.asymmetricalPhase r increment angle))).fields?
        (rangeNames ++ ["step_voltage_increment", "winding_connection_angle"]) = some _ :=
      Json.fields?_record (by decide) (.refl _)
    simp only [numbers, AllFinite.cons_iff] at h
    rw [kind, ofKind?, hf]
    simp [members, range?, rangeMembers, h.1, h.2.1]

theorem ofJson?_toJson (h : AllFinite t.numbers) : ofJson? t.toJson = some t := by
  rw [ofJson?_eq_ofKind? h, ofKind?_members h]

theorem reads_ofKind? (kind : String) : Json.Reads (ofKind? kind) fun t => AllFinite t.numbers := by
  intro j t hj h
  unfold ofKind? at h
  split at h
  any_goals
    simp only [Option.bind_eq_bind, Option.bind_eq_some_iff, Option.pure_def,
      Option.some.injEq] at h
  · obtain ⟨f, hf, low, -, neutral, -, steps, hsteps, rfl⟩ := h
    exact AllFinite.flatMap_iff.2
      ((Fields.finite_of_fields? hj hf).required TapStep.reads_ofJson?.toList? hsteps)
  · obtain ⟨f, hf, r, -, increment, hincrement, rfl⟩ := h
    simp [numbers, (Fields.finite_of_fields? hj hf).required_toFloat? hincrement]
  · obtain ⟨f, hf, r, -, increment, hincrement, rfl⟩ := h
    simp [numbers, (Fields.finite_of_fields? hj hf).required_toFloat? hincrement]
  · obtain ⟨f, hf, r, -, increment, hincrement, rfl⟩ := h
    simp [numbers, (Fields.finite_of_fields? hj hf).required_toFloat? hincrement]
  · obtain ⟨f, hf, r, -, increment, hincrement, angle, hangle, rfl⟩ := h
    have hfinite := Fields.finite_of_fields? hj hf
    simp [numbers, hfinite.required_toFloat? hincrement, hfinite.required_toFloat? hangle]
  · cases h

theorem reads_ofJson? : Json.Reads ofJson? fun t => AllFinite t.numbers := by
  intro j t hj h
  unfold ofJson? at h
  split at h
  · rename_i ms
    cases hj with
    | record hms =>
      obtain ⟨-, -, h⟩ := Option.bind_eq_some_iff.1 h
      split at h
      · exact reads_ofKind? _ _ t (.record fun m hm => hms m (List.mem_of_mem_filter hm)) h
      · cases h
  · rename_i kind rest
    cases hj with
    | list hitems =>
      obtain ⟨-, -, h⟩ := Option.bind_eq_some_iff.1 h
      exact reads_ofKind? kind _ t (.list fun j hj => hitems j (List.mem_cons_of_mem _ hj)) h
  · cases h

end TapTable

namespace TapChangerSpec

variable {s : TapChangerSpec Float}

theorem ofJson?_toJson (h : AllFinite s.numbers) : ofJson? s.toJson = some s := by
  obtain ⟨htable, hregulation⟩ := AllFinite.append_iff.1 h
  rw [AllFinite.flatMap_toList_iff] at hregulation
  have hposition : (s.tapPosition.map fun p : Int32 => Json.ofInt p.toInt).elim (some none)
      (Json.toOption? Json.toInt32?) = some s.tapPosition :=
    Fields.elim_map_toOption? rfl fun p _ => Json.toInt32?_ofInt p
  have hregulation' := Fields.elim_map_toOption? rfl fun r hr =>
    Regulation.ofJson?_toJson (hregulation r hr)
  rw [ofJson?, toJson, Json.fields?_record]
  · simp [TapTable.ofJson?_toJson htable, hposition, hregulation']
  · decide
  · change List.Sublist _ (["id", "table"] ++ ["tap_position"] ++ ["regulation"])
    exact Json.append_memberOf_sublist (Json.append_memberOf_sublist (.refl _) _ _ _) _ _ _

theorem reads_ofJson? : Json.Reads ofJson? fun s => AllFinite s.numbers := by
  intro j s hj h
  simp only [ofJson?, Option.bind_eq_bind, Option.bind_eq_some_iff, Option.pure_def,
    Option.some.injEq] at h
  obtain ⟨f, hf, id, -, table, htable, position, -, regulation, hregulation, rfl⟩ := h
  have hfinite := Fields.finite_of_fields? hj hf
  have htable' := hfinite.required TapTable.reads_ofJson? htable
  have hregulation' := hfinite.defaulted_toOption? Regulation.reads_ofJson? hregulation
  exact AllFinite.append_iff.2 ⟨htable', AllFinite.flatMap_toList_iff.2 hregulation'⟩

end TapChangerSpec

end EquivalentCircuit
