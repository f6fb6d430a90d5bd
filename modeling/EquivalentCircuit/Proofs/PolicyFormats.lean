import EquivalentCircuit.Files.Tree
import EquivalentCircuit.Proofs.PolicyToml
import EquivalentCircuit.Proofs.PolicyYaml
import EquivalentCircuit.Proofs.StrictRun

/-! Policies in files. A text of a policy is read back as the policy in its own format, and also
where its format is not known: TOML refuses what is written as YAML or JSON, and what is written as
JSON is the same as YAML. -/

namespace EquivalentCircuit

namespace Policy

theorem toml_refuses_yaml (p : Policy) : read? .toml (p.text .yaml) = none := by
  obtain ⟨l, ls, h⟩ := Yaml.laid_policy p
  obtain ⟨key, t, hkey, htext⟩ := Yaml.Laid.text_begins h
  have hread : Toml.read? (p.text .yaml) = none := Toml.read?_colon hkey htext
  rw [read?, hread, Option.bind_none]

theorem toml_refuses_json (p : Policy) : read? .toml (p.text .json) = none := by
  have hread : Toml.read? (p.text .json) = none := Toml.read?_brace String.toList_ofList
  rw [read?, hread, Option.bind_none]

theorem read?_text (p : Policy) (f : PolicyFormat) : read? f (p.text f) = some p :=
  match f with
  | .toml => p.read?_toml
  | .yaml => p.read?_yaml
  | .json => p.read?_json

theorem readAny?_text (p : Policy) (f : PolicyFormat) : readAny? (p.text f) = some p := by
  cases f with
  | toml => rw [readAny?, p.read?_toml, Option.some_or]
  | yaml => rw [readAny?, p.toml_refuses_yaml, p.read?_yaml, Option.none_or, Option.some_or]
  | json => rw [readAny?, p.toml_refuses_json, p.read?_yaml_json, Option.none_or, Option.some_or]

section Files

variable {σ : Type} [FileSystem σ] {files : σ} {path s : String} {p : Policy}

theorem run_readText (h : FileSystem.read files path = .bytes s.toUTF8) (a : Activity) :
    (Attempt.readText a path : Attempt (StateM σ) String).run.run files = (.ok s, files) := by
  have htext : (FileSystem.read files path).text? = some s := by
    rw [h]
    exact fromUTF8?_toUTF8 s
  change (Attempt.ofOption a (FileSystem.read files path).text? :
    Attempt (StateM σ) String).run.run files = _
  rw [htext]
  rfl

/-- A policy is loaded where its text is in a file whose extension does not belong to another
format. -/
theorem run_load {f : PolicyFormat} (h : FileSystem.read files path = .bytes (p.text f).toUTF8)
    (hpath : ∀ g ∈ PolicyFormat.ofPath? path, g = f) :
    (load path : Attempt (StateM σ) Policy).run.run files = (.ok p, files) := by
  have hread := congrArg Prod.fst (run_readText h (.readingPolicy path))
  rw [load, (Attempt.ReadOnly.readText _ path).run_bind_of_ok hread]
  cases hformat : PolicyFormat.ofPath? path with
  | none =>
    simp only [p.readAny?_text]
    rfl
  | some g =>
    obtain rfl := hpath g hformat
    simp only [p.read?_text]
    rfl

end Files

/-- The text of a policy is read back as that policy: in its own format, in any format where that is
not known, and from a file, unless the extension of the file is that of another format. -/
theorem texts_read_back (p : Policy) (f : PolicyFormat) :
    read? f (p.text f) = some p ∧ readAny? (p.text f) = some p ∧
      ∀ {σ : Type} [FileSystem σ] (files : σ) (path : String),
        FileSystem.read files path = .bytes (p.text f).toUTF8 →
          (∀ g ∈ PolicyFormat.ofPath? path, g = f) →
            (load path : Attempt (StateM σ) Policy).run.run files = (.ok p, files) :=
  ⟨p.read?_text f, p.readAny?_text f, fun _ _ h hpath => run_load h hpath⟩

/-- Files of each format whose extensions are not known, and one whose extension is. -/
theorem texts_read_back_unknown_extension :
    let leg : LegPolicy := ⟨false, .split, true⟩
    let p : Policy :=
      ⟨⟨.reactanceFree, .split, .end2, true⟩, ⟨.networkSide, ⟨{}, leg, {}⟩⟩, true⟩
    let files : FileTree := ⟨[([['t', '.', 'x']], .file (p.text .toml).toUTF8),
      ([['y', '.', 'x']], .file (p.text .yaml).toUTF8), ([['j']], .file (p.text .json).toUTF8),
      ([['y', '.', 'Y', 'M', 'L']], .file (p.text .yaml).toUTF8)]⟩
    let load (path : String) := (load path : Attempt (StateM FileTree) Policy).run.run files
    ["t.x", "y.x", "j", "y.YML"].map PolicyFormat.ofPath? = [none, none, none, some .yaml] ∧
      load "t.x" = (.ok p, files) ∧ load "y.x" = (.ok p, files) ∧ load "j" = (.ok p, files) ∧
      load "y.YML" = (.ok p, files) := by
  intro leg p files load
  have hpath : ["t.x", "y.x", "j", "y.YML"].map PolicyFormat.ofPath? =
      [none, none, none, some .yaml] := by
    decide +kernel
  refine ⟨hpath, ?_, ?_, ?_, ?_⟩
  · exact (texts_read_back p .toml).2.2 files "t.x" rfl (by decide +kernel)
  · exact (texts_read_back p .yaml).2.2 files "y.x" rfl (by decide +kernel)
  · exact (texts_read_back p .json).2.2 files "j" rfl (by decide +kernel)
  · exact (texts_read_back p .yaml).2.2 files "y.YML" rfl (by decide +kernel)

end Policy

end EquivalentCircuit
