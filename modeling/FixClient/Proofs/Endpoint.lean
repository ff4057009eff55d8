import FixClient.Endpoint
import FixClient.Proofs.Text.Blank
import FixClient.Proofs.Text.Numeral
import Mathlib.Data.List.Basic

/-!
# The meaning of addresses

A trimmed address names an endpoint in one of three ways. What this endpoint is shown as starts
with its scheme and ends as the address did, so that it is trimmed, too, and names the endpoint
again.
-/

namespace FixClient.Endpoint

open Text

variable {cs l r u : List Char} {sep : Char} {s : String} {e : Endpoint}

section Cut

theorem cutLast?_eq_none_iff : cutLast? sep cs = none ↔ sep ∉ cs := by
  induction cs with
  | nil => simp [cutLast?]
  | cons c cs ih =>
      rw [cutLast?]
      cases hcut : cutLast? sep cs with
      | none =>
          have hcs := ih.mp hcut
          simp [hcs, eq_comm]
      | some parts =>
          have hcs : sep ∈ cs := by
            apply Decidable.of_not_not
            intro hnot
            simp [ih.mpr hnot] at hcut
          simp [hcs]

theorem cutLast?_append (h : sep ∉ r) : cutLast? sep (l ++ sep :: r) = some (l, r) := by
  induction l with
  | nil => simp [cutLast?, cutLast?_eq_none_iff.mpr h]
  | cons c l ih => simp [cutLast?, ih]

theorem of_cutLast?_eq_some (h : cutLast? sep cs = some (l, r)) : cs = l ++ sep :: r ∧ sep ∉ r := by
  induction cs generalizing l with
  | nil => cases h
  | cons c cs ih =>
      rw [cutLast?] at h
      cases hcut : cutLast? sep cs with
      | some parts =>
          obtain ⟨l', r'⟩ := parts
          obtain ⟨rfl, rfl⟩ : c :: l' = l ∧ r' = r := by simpa [hcut] using h
          obtain ⟨rfl, hnot⟩ := ih hcut
          exact ⟨rfl, hnot⟩
      | none =>
          obtain ⟨rfl, rfl, rfl⟩ : c = sep ∧ [] = l ∧ cs = r := by simpa [hcut] using h
          exact ⟨rfl, cutLast?_eq_none_iff.mp hcut⟩

end Cut

/-- A host that is not empty and a port below 2^16, at the last colon. -/
inductive HostAndPort : List Char → Prop
  | intro {host port : List Char} {n : Nat} (hhost : host ≠ []) (hcolon : ':' ∉ port)
      (hport : Numeral.IsSigned port n) (hbound : n < 2 ^ 16) : HostAndPort (host ++ ':' :: port)

theorem isHostAndPort_iff : isHostAndPort cs = true ↔ HostAndPort cs := by
  constructor
  · intro h
    rw [isHostAndPort] at h
    cases hcut : cutLast? ':' cs with
    | none => simp [hcut] at h
    | some parts =>
        obtain ⟨host, port⟩ := parts
        obtain ⟨rfl, hcolon⟩ := of_cutLast?_eq_some hcut
        obtain ⟨hhost, hport⟩ : host ≠ [] ∧ (Numeral.unsigned? (2 ^ 16) port).isSome = true := by
          simpa [hcut] using h
        obtain ⟨n, hn⟩ := Option.isSome_iff_exists.mp hport
        obtain ⟨hport, hbound⟩ := Numeral.unsigned?_eq_some_iff.mp hn
        exact .intro hhost hcolon hport hbound
  · rintro ⟨hhost, hcolon, hport, hbound⟩
    have hread := Numeral.unsigned?_eq_some_iff.mpr ⟨hport, hbound⟩
    simp [isHostAndPort, cutLast?_append hcolon, hhost, hread]

/-- The endpoint that a trimmed address names. -/
inductive Names : List Char → Endpoint → Prop
  | unix {path : List Char} (hpath : path ≠ []) :
      Names (unixScheme ++ path) (.unix (String.ofList path))
  | tcp {address : List Char} (haddress : HostAndPort address) :
      Names (tcpScheme ++ address) (.tcp (String.ofList address))
  | bare {path : List Char} (hunix : ¬ unixScheme <+: path) (htcp : ¬ tcpScheme <+: path)
      (hhead : path.head? = some '/' ∨ path.head? = some '.') :
      Names path (.unix (String.ofList path))

theorem isBarePath_iff : isBarePath cs = true ↔ cs.head? = some '/' ∨ cs.head? = some '.' := by
  cases cs with
  | nil => simp [isBarePath]
  | cons c cs => simp [isBarePath]

theorem isPrefixOf?_eq_none_iff {scheme : List Char} :
    scheme.isPrefixOf? cs = none ↔ ¬ scheme <+: cs := by
  rw [← List.isPrefixOf_iff_prefix, ← List.isSome_isPrefixOf?_eq_isPrefixOf,
    Option.isSome_iff_ne_none, Decidable.not_not]

section Exits

theorem unixScheme_ne_nil : unixScheme ≠ [] := by decide

theorem tcpScheme_ne_nil : tcpScheme ≠ [] := by decide

theorem parse_of_unix {path : List Char} (h : trimChars s.toList = unixScheme ++ path) :
    parse s = if path = [] then .error .pathMissing else .ok (.unix (String.ofList path)) := by
  have hread : unixScheme.isPrefixOf? (unixScheme ++ path) = some path :=
    List.isPrefixOf?_eq_some_iff_append_eq.mpr rfl
  simp [parse, h, unixScheme_ne_nil, hread]

theorem parse_of_tcp {address : List Char} (h : trimChars s.toList = tcpScheme ++ address) :
    parse s = if isHostAndPort address then .ok (.tcp (String.ofList address))
      else .error (.notHostAndPort (String.ofList address)) := by
  have hunix : unixScheme.isPrefixOf? (tcpScheme ++ address) = none := rfl
  have hread : tcpScheme.isPrefixOf? (tcpScheme ++ address) = some address :=
    List.isPrefixOf?_eq_some_iff_append_eq.mpr rfl
  simp [parse, h, tcpScheme_ne_nil, hunix, hread]

theorem parse_of_bare (hunix : ¬ unixScheme <+: trimChars s.toList)
    (htcp : ¬ tcpScheme <+: trimChars s.toList) (hbare : isBarePath (trimChars s.toList) = true) :
    parse s = .ok (.unix (String.ofList (trimChars s.toList))) := by
  have hne : trimChars s.toList ≠ [] := by
    intro hnil
    rw [hnil] at hbare
    cases hbare
  simp [parse, hne, isPrefixOf?_eq_none_iff.mpr hunix, isPrefixOf?_eq_none_iff.mpr htcp, hbare]

theorem parse_of_unrecognized (hunix : ¬ unixScheme <+: trimChars s.toList)
    (htcp : ¬ tcpScheme <+: trimChars s.toList) (hbare : isBarePath (trimChars s.toList) = false) :
    parse s = .error (if trimChars s.toList = [] then .addressEmpty
      else .addressUnrecognized (String.ofList (trimChars s.toList))) := by
  by_cases hne : trimChars s.toList = []
  · simp [parse, hne]
  · simp [parse, hne, isPrefixOf?_eq_none_iff.mpr hunix, isPrefixOf?_eq_none_iff.mpr htcp, hbare]

end Exits

theorem parse_eq_ok_iff : parse s = .ok e ↔ Names (trimChars s.toList) e := by
  constructor
  · intro h
    by_cases hunix : unixScheme <+: trimChars s.toList
    · obtain ⟨path, hpath⟩ := hunix
      rw [parse_of_unix hpath.symm] at h
      split at h
      case isTrue => cases h
      case isFalse hne =>
        cases h
        exact hpath ▸ .unix hne
    by_cases htcp : tcpScheme <+: trimChars s.toList
    · obtain ⟨address, haddress⟩ := htcp
      rw [parse_of_tcp haddress.symm] at h
      split at h
      case isTrue hhost =>
        cases h
        exact haddress ▸ .tcp (isHostAndPort_iff.mp hhost)
      case isFalse => cases h
    cases hbare : isBarePath (trimChars s.toList) with
    | true =>
        rw [parse_of_bare hunix htcp hbare] at h
        cases h
        exact .bare hunix htcp (isBarePath_iff.mp hbare)
    | false =>
        rw [parse_of_unrecognized hunix htcp hbare] at h
        cases h
  · intro h
    generalize hu : trimChars s.toList = u at h
    cases h with
    | unix hpath => rw [parse_of_unix hu, if_neg hpath]
    | tcp haddress => rw [parse_of_tcp hu, if_pos (isHostAndPort_iff.mpr haddress)]
    | bare hunix htcp hhead =>
        subst hu
        exact parse_of_bare hunix htcp (isBarePath_iff.mpr hhead)

section Shown

theorem toList_text_unix (path : List Char) :
    (unix (String.ofList path)).text.toList = unixScheme ++ path := by
  simp [text, unixScheme]

theorem toList_text_tcp (address : List Char) :
    (tcp (String.ofList address)).text.toList = tcpScheme ++ address := by
  simp [text, tcpScheme]

theorem Names.text (h : Names u e) : Names e.text.toList e := by
  cases h with
  | unix hpath =>
      rw [toList_text_unix]
      exact .unix hpath
  | tcp haddress =>
      rw [toList_text_tcp]
      exact .tcp haddress
  | bare hunix htcp hhead =>
      rw [toList_text_unix]
      apply Names.unix
      rintro rfl
      simp at hhead

/-- Showing an endpoint puts nothing blank at the ends. -/
theorem Names.trimmed_text (h : Names u e) (hu : Trimmed u) : Trimmed e.text.toList := by
  cases h with
  | unix hpath => rwa [toList_text_unix]
  | tcp haddress => rwa [toList_text_tcp]
  | bare hunix htcp hhead =>
      have hblank : ∀ c ∈ unixScheme, isBlank c = false := by simp [unixScheme, isBlank]
      rw [toList_text_unix]
      exact trimmed_append unixScheme_ne_nil hblank hu.last

theorem parse_text (h : parse s = .ok e) : parse e.text = .ok e := by
  have hnames := parse_eq_ok_iff.mp h
  have htrimmed := hnames.trimmed_text (trims_trimChars s.toList).trimmed
  rw [parse_eq_ok_iff, htrimmed.trimChars_eq]
  exact hnames.text

end Shown

/-- Which texts are addresses and what they name. An endpoint is shown as an address of its own. -/
theorem addresses_have_one_meaning (s : String) :
    ∃ u, Trims s.toList u ∧ (∀ e, parse s = .ok e ↔ Names u e) ∧
      ∀ e, parse s = .ok e → parse e.text = .ok e := by
  refine ⟨trimChars s.toList, trims_trimChars s.toList, ?_, ?_⟩
  · intro e
    exact parse_eq_ok_iff
  · intro e h
    exact parse_text h

/-- A path without its scheme is shown with it. -/
theorem addresses_have_one_meaning_bare :
    parse " ./run\n" = .ok (.unix "./run") ∧
      (∃ u, Trims " ./run\n".toList u ∧ Names u (.unix "./run")) ∧
      text (.unix "./run") = "unix:./run" ∧ parse "unix:./run" = .ok (.unix "./run") := by
  have h : parse " ./run\n" = .ok (.unix "./run") := by decide +kernel
  obtain ⟨u, hu, hnames, htext⟩ := addresses_have_one_meaning " ./run\n"
  have hshown : text (.unix "./run") = "unix:./run" := by decide +kernel
  exact ⟨h, ⟨u, hu, (hnames _).mp h⟩, hshown, hshown ▸ htext _ h⟩

end FixClient.Endpoint
