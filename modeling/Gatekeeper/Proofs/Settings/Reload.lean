import Gatekeeper.Proofs.Settings.Loaders

/-!
# Proofs/Settings/Reload — settings that are written down and read back

A path that has been put into settings is put into them again when settings are written down and
read back.  It is rooted, and so it is left alone unless it ends in a blank; and it ends in a blank
just if a blank stood before the `/`s that were taken off its end (`pathKept`).  Then other settings
are read back, with a shorter path, or none.
-/

namespace Gatekeeper.Settings

open Json (Value)
open Text (trimmed)

/-! ## Paths that are put into settings -/

theorem withPath_eq_ok_iff {s s' : Settings} {path : String} : s.withPath path = .ok s' ↔
    ∃ p, canonicalPath? path = some p ∧ { s with path := p } = s' := by
  rw [withPath]
  cases canonicalPath? path <;> simp

/-- The path of settings is put into them again just if it is left alone. -/
theorem withPath_self_iff {s : Settings} (h : Rooted s.path) :
    s.withPath s.path = .ok s ↔ trimmed s.path = s.path := by
  rw [withPath_eq_ok_iff, ← canonicalPath?_self_iff h]
  constructor
  · rintro ⟨p, hp, hs⟩
    rwa [← hs] at hp ⊢
  · exact fun hp => ⟨s.path, hp, rfl⟩

/-! ## Settings that are read back -/

/-- The settings as variables hold them. -/
def toVariables (s : Settings) (name : String) : Option String :=
  if name = pathVariable then some s.path
  else if name = componentVariable then some s.component.word
  else if name = keyVariable then some s.key
  else none

/-- The settings as a JSON text. -/
def written (s : Settings) : String := (Value.object (given s.toVariables)).render

/-- The three ways to settings. -/
inductive Loaded : Settings → Prop
  | lookup {lookup : String → Option String} {s : Settings} (h : ofVariables lookup = .ok s) :
      Loaded s
  | text {text : String} {s : Settings} (h : ofJson text = .ok s) : Loaded s
  | document {text : String} {s : Settings} (h : Json.decode reader text = .ok s) : Loaded s

/-- Whichever way settings are read, they are checked. -/
theorem Loaded.exists_raw {s : Settings} (h : s.Loaded) :
    ∃ raw, RawSettings.settings raw = .ok s := by
  cases h with
  | lookup h =>
    obtain ⟨_, -, hs⟩ := ofVariables_eq_ok_iff.mp h
    exact ⟨_, hs⟩
  | text h =>
    obtain ⟨raw, -, hs⟩ := ofJson_eq_ok_iff.mp h
    exact ⟨raw, hs⟩
  | document h =>
    obtain ⟨raw, -, hs⟩ := ofJson_eq_ok_iff.mp (ofJson_eq_ok_iff_decode.mpr h)
    exact ⟨raw, hs⟩

/-- **What variables hold of settings** is read back as the settings, if their path is left alone. -/
theorem ofVariables_toVariables {s : Settings} (hkey : s.key ≠ "") (hrooted : Rooted s.path) :
    ofVariables s.toVariables = .ok s ↔ trimmed s.path = s.path := by
  have hpath : s.toVariables pathVariable = some s.path := rfl
  have hcomponent : s.toVariables componentVariable = some s.component.word := rfl
  have hkeyed : s.toVariables keyVariable = some s.key := rfl
  have hnamed : namedComponent (some s.component.word) = .ok (some s.component) :=
    namedComponent_some_eq_ok_iff.mpr ⟨s.component, Component.ofText_word _, rfl⟩
  rw [ofVariables_eq_ok_iff, hpath, hcomponent, hkeyed, hnamed, ← canonicalPath?_self_iff hrooted]
  simp only [RawSettings.settings_eq_ok_iff]
  constructor
  · rintro ⟨_, -, -, -, hp, -⟩
    exact hp
  · exact fun hp => ⟨some s.component, rfl, trivial, hkey, hp, rfl⟩

/-- **What is written of settings** is read back as what variables hold of them. -/
theorem ofJson_written (s s' : Settings) :
    ofJson s.written = .ok s' ↔ ofVariables s.toVariables = .ok s' :=
  ofJson_given (Json.document_render _) (.refl _) s'

/-! ## The paths of settings -/

/-- **Which paths are put into settings once and for all.**  Take any settings, and put a path into
them.  What they hold then starts with a `/` and does not end in one.  It ends in a blank just if the
text that was given has a blank before the `/`s at its end, blanks after them aside.  If it does not,
the same path is put into the settings when it is given again; if it does, a shorter one is, or none.
Settings that were read, whichever way, have got their path so, and they are read back from variables
and from JSON just if it does not end in a blank. -/
theorem pathKept (s : Settings) :
    (∀ text s', s.withPath text = .ok s' →
      Rooted s'.path ∧ (trimmed s'.path = s'.path ↔ ¬HidesBlank text) ∧
      (s'.withPath s'.path = .ok s' ↔ ¬HidesBlank text) ∧
      (HidesBlank text → ∀ s'', s'.withPath s'.path = .ok s'' →
        s''.path.length < s'.path.length)) ∧
    (s.Loaded → (∃ text, s.withPath text = .ok s) ∧
      (ofVariables s.toVariables = .ok s ↔ trimmed s.path = s.path) ∧
      (ofJson s.written = .ok s ↔ trimmed s.path = s.path) ∧
      (Json.decode reader s.written = .ok s ↔ trimmed s.path = s.path)) := by
  refine ⟨fun text s' h => ?_, fun h => ?_⟩
  · obtain ⟨p, hp, rfl⟩ := withPath_eq_ok_iff.mp h
    have hrooted : Rooted p := (canonicalPath?_eq_some_iff.mp hp).1
    have hblank := trimmed_eq_self_iff hp
    refine ⟨hrooted, hblank, (withPath_self_iff hrooted).trans hblank, fun hhides s'' h'' => ?_⟩
    obtain ⟨q, hq, rfl⟩ := withPath_eq_ok_iff.mp h''
    exact length_lt_of_canonicalPath? (fun htrimmed => hblank.mp htrimmed hhides) hq
  · obtain ⟨raw, hs⟩ := h.exists_raw
    obtain ⟨-, hkey, hpath, -⟩ := RawSettings.settings_eq_ok_iff.mp hs
    have hrooted : Rooted s.path := (canonicalPath?_eq_some_iff.mp hpath).1
    have hback := ofVariables_toVariables hkey hrooted
    have hjson := (ofJson_written s s).trans hback
    exact ⟨⟨raw.path, withPath_eq_ok_iff.mpr ⟨s.path, hpath, rfl⟩⟩, hback, hjson,
      ofJson_eq_ok_iff_decode.symm.trans hjson⟩

/-- **Not every path is put into settings once and for all**: what is kept of `/a /` ends in a blank,
and without it when it is given again. -/
theorem not_pathKept :
    ¬∀ (s : Settings) (text : String) (s' : Settings), s.withPath text = .ok s' →
      (trimmed s'.path = s'.path ∧ s'.path.toList.getLast? ≠ some '/') ∧
        s'.withPath s'.path = .ok s' := by
  intro hall
  have hkept : withPath ⟨defaultPath, .controller, "k"⟩ "/a /"
      = .ok ⟨"/a ", .controller, "k"⟩ := by
    decide +kernel
  have hagain : withPath ⟨"/a ", .controller, "k"⟩ "/a " = .ok ⟨"/a", .controller, "k"⟩ := by
    decide +kernel
  have hsame := hagain.symm.trans (hall _ _ _ hkept).2
  exact absurd hsame (by decide)

/-- Settings whose path has a blank before the `/`s at its end, and settings whose path has none. -/
def pathTexts : String × String :=
  ("\x7b\"secret_key\":\"k\",\"user_config_path\":\"\u3000/a\u00a0// \"\x7d",
    "\x7b\"secret_key\":\"k\",\"user_config_path\":\" /a b//\u2028\"\x7d")

/-- The former are read back as others, with a shorter path, and the latter as they are. -/
theorem pathKept_sample :
    ofJson pathTexts.1 = .ok ⟨"/a\u00a0", .controller, "k"⟩ ∧
    ofJson (written ⟨"/a\u00a0", .controller, "k"⟩) = .ok ⟨"/a", .controller, "k"⟩ ∧
    ofJson (written ⟨"/a\u00a0", .controller, "k"⟩) ≠ .ok ⟨"/a\u00a0", .controller, "k"⟩ ∧
    ofJson pathTexts.2 = .ok ⟨"/a b", .controller, "k"⟩ ∧
    ofJson (written ⟨"/a b", .controller, "k"⟩) = .ok ⟨"/a b", .controller, "k"⟩ ∧
    withPath ⟨"/a b", .controller, "k"⟩ "/a b" = .ok ⟨"/a b", .controller, "k"⟩ := by
  have hblank : ofJson pathTexts.1 = .ok ⟨"/a\u00a0", .controller, "k"⟩ := by decide +kernel
  have hplain : ofJson pathTexts.2 = .ok ⟨"/a b", .controller, "k"⟩ := by decide +kernel
  have hpath : withPath ⟨defaultPath, .controller, "k"⟩ " /a b//\u2028"
      = .ok ⟨"/a b", .controller, "k"⟩ := by
    decide +kernel
  obtain ⟨-, hhides, hagain, -⟩ := (pathKept _).1 _ _ hpath
  obtain ⟨-, -, hblankBack, -⟩ := (pathKept _).2 (.text hblank)
  obtain ⟨-, -, hplainBack, -⟩ := (pathKept _).2 (.text hplain)
  exact ⟨hblank, by decide +kernel, fun h => absurd (hblankBack.mp h) (by decide), hplain,
    hplainBack.mpr (by decide), hagain.mpr (hhides.mp (by decide))⟩

end Gatekeeper.Settings
