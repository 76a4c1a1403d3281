import Jolt.Core.Sample

/-! # The text of an address

An address is shown as the label of the identity, `.jolt` and the path, without the path if it is
`/`. Reading the text cuts it at the first slash and normalizes what follows, so it gives the
address back (`fromStr_toString`) unless what follows the first slash starts with a slash again:
that one then is taken for the leading slash of the path. Different addresses always have different
texts. -/

namespace Jolt.Core.AddressText

open Std Lib Checks Text Jolt.Core.Types Address DeviceWriterLog List JoltAddress
open Sample (base32Text content identityText key owner primitives twoDevices)

/-! ### Labels -/

def base32Letters : List Char := "abcdefghijklmnopqrstuvwxyz234567".toList

/-- **The label of an identity is lowercase base32**: `BASE32_NOPAD.encode` of 32 bytes, in lower
case. -/
structure Base32Labels (P : Primitives) : Prop where
  ne_empty : ∀ identity, P.identityToString identity ≠ ""
  letters : ∀ identity, ∀ c ∈ (P.identityToString identity).toList, c ∈ base32Letters

/-- Neither white space nor the start of a query or a fragment. -/
def isPlain (c : Char) : Bool := c ≠ '?' && c ≠ '#' && !isWhitespace c

theorem base32Letters_plain : ∀ c ∈ base32Letters, isPlain c = true ∧ c ≠ '.' ∧ c ≠ '/' :=
  all_iff_forall_prop.mp rfl

/-! ### Paths as they are stored -/

def withSlash (path : String) : String := if startsWith path "/" then path else "/" ++ path

structure StoredPath (path : String) : Prop where
  slash : startsWith path "/" = true
  plain : ∀ c ∈ path.toList, isPlain c = true
  dots : ∀ segment ∈ segments path, ¬ (segment = ['.'] ∨ segment = ['.', '.'])

variable {raw rest path : String}

theorem slash_eq_singleton : ("/" : String) = String.singleton '/' := by decide

theorem startsWith_slash_iff : startsWith path "/" = true ↔ path.toList.head? = some '/' := by
  rw [slash_eq_singleton, startsWith_singleton_iff]

theorem toList_slash_append (rest : String) : ("/" ++ rest).toList = '/' :: rest.toList := by
  rw [slash_eq_singleton, String.toList_append, String.toList_singleton, singleton_append]

theorem segments_slash (rest : String) : segments ("/" ++ rest) = [] :: segments rest := by
  rw [segments, toList_slash_append]
  exact (splitOnP_cons_eq_if_modifyHead _ _).trans (if_pos (beq_self_eq_true '/'))

theorem withSlash_of_startsWith (h : startsWith path "/" = true) : withSlash path = path := if_pos h

theorem withSlash_eq (raw : String) : ∃ rest, withSlash raw = "/" ++ rest := by
  unfold withSlash
  split_ifs with h
  · exact startsWith_iff.mp h
  · exact ⟨raw, rfl⟩

theorem storedPath_slash : StoredPath "/" := ⟨by decide, all_eq_true.mp rfl, by decide⟩

theorem plain_withSlash_iff : (∀ c ∈ (withSlash raw).toList, isPlain c = true) ↔
      ¬ ('?' ∈ raw.toList ∨ '#' ∈ raw.toList ∨ raw.toList.any isWhitespace = true) := by
  have hraw : (∀ c ∈ raw.toList, isPlain c = true) ↔
      ¬ ('?' ∈ raw.toList ∨ '#' ∈ raw.toList ∨ raw.toList.any isWhitespace = true) := by
    simp only [isPlain, Bool.and_eq_true, decide_eq_true_eq, Bool.not_eq_true', any_eq_true, not_or,
      not_exists, not_and, Bool.not_eq_true]
    constructor
    · exact fun h => ⟨fun hmem => (h _ hmem).1.1 rfl, fun hmem => (h _ hmem).1.2 rfl, fun c hc =>
        (h c hc).2⟩
    · rintro ⟨hquery, hfragment, hspace⟩ c hc
      exact ⟨⟨fun heq => hquery (heq ▸ hc), fun heq => hfragment (heq ▸ hc)⟩, hspace c hc⟩
  rw [← hraw]
  unfold withSlash
  split_ifs
  · exact Iff.rfl
  · rw [toList_slash_append, forall_mem_cons]
    exact and_iff_right (by decide)

theorem withSlash_eq_normalized : (if raw.toList.head? = some '/' then raw else "/" ++ raw) =
    withSlash raw := by
  simp only [withSlash, startsWith_slash_iff]

/-- Exactly the paths that are well formed behind one slash are taken. -/
theorem normalizePath_eq_ok : normalizePath raw = .ok path ↔ StoredPath (withSlash raw) ∧
    path = withSlash raw := by
  unfold normalizePath
  simp only [withSlash_eq_normalized]
  split_ifs with hroot hplain hdots
  · -- the root is not checked any further
    have hslash : withSlash raw = "/" := by rcases hroot with rfl | rfl <;> decide
    rw [hslash, Except.ok.injEq, eq_comm, and_iff_right storedPath_slash]
  · have hnot : ¬ StoredPath (withSlash raw) := fun h => plain_withSlash_iff.mp h.plain hplain
    simp [hnot]
  · have hnot : ¬ StoredPath (withSlash raw) := by
      intro h
      obtain ⟨segment, hmem, hdot⟩ := any_eq_true.mp hdots
      exact h.dots segment hmem (of_decide_eq_true hdot)
    simp [hnot]
  · have hslash : startsWith (withSlash raw) "/" = true := by
      obtain ⟨rest, hrest⟩ := withSlash_eq raw
      rw [hrest]
      exact startsWith_append _ _
    have hstored : StoredPath (withSlash raw) := by
      refine ⟨hslash, plain_withSlash_iff.mpr hplain, fun segment hmem hdot => hdots ?_⟩
      exact any_eq_true.mpr ⟨segment, hmem, decide_eq_true hdot⟩
    rw [Except.ok.injEq, eq_comm, and_iff_right hstored]

variable {identity : IdentityId}

theorem new_eq_ok {address : JoltAddress} : new identity raw = .ok address ↔
      StoredPath (withSlash raw) ∧ address = ⟨identity, withSlash raw⟩ := by
  rw [new]
  constructor
  · intro h
    cases hpath : normalizePath raw with
    | error e => rw [hpath] at h; cases h
    | ok path =>
      rw [hpath] at h
      cases h
      obtain ⟨hstored, rfl⟩ := normalizePath_eq_ok.mp hpath
      exact ⟨hstored, rfl⟩
  · rintro ⟨hstored, rfl⟩
    rw [normalizePath_eq_ok.mpr ⟨hstored, rfl⟩]
    rfl

theorem StoredPath.tail (h : StoredPath ("/" ++ rest)) : StoredPath (withSlash rest) := by
  unfold withSlash
  split_ifs with hslash
  · refine ⟨hslash, fun c hc => h.plain c ?_, fun segment hsegment => h.dots segment ?_⟩
    · rw [String.toList_append]
      exact mem_append_right _ hc
    · rw [segments_slash]
      exact mem_cons_of_mem _ hsegment
  · exact h

theorem withSlash_eq_iff : withSlash rest = "/" ++ rest ↔ startsWith rest "/" = false := by
  unfold withSlash
  split_ifs with hslash
  · have hne : rest ≠ "/" ++ rest := by
      intro heq
      have hlength := congrArg (fun s : String => s.toList.length) heq
      simp at hlength
    simp [hslash, hne]
  · simp [hslash]

theorem startsWith_slashes (h : withSlash raw = "/" ++ rest) :
    startsWith raw "//" = startsWith rest "/" := by
  have hcons : ∀ s : String, startsWith ("/" ++ s) "//" = startsWith s "/" := by
    intro s
    rw [startsWith, startsWith, toList_slash_append]
    rfl
  unfold withSlash at h
  split_ifs at h with hslash
  · rw [h, hcons]
  · obtain rfl := append_left_cancel h
    have hdouble : startsWith raw "//" = false := by
      by_contra hstart
      refine hslash (startsWith_trans (by simpa using hstart) ?_)
      decide
    rw [hdouble, eq_comm]
    simpa using hslash

/-! ### Reading the text of an address -/

section

variable {P : Primitives} (hlabels : Base32Labels P) (labelError : String → String)
include hlabels

theorem label_plain (identity : IdentityId) {c : Char}
    (hc : c ∈ (P.identityToString identity).toList) :
    isPlain c = true ∧ c ≠ '.' ∧ c ≠ '/' :=
  base32Letters_plain c (hlabels.letters identity c hc)

theorem host_plain (identity : IdentityId) {c : Char}
    (hc : c ∈ (P.identityToString identity ++ joltSuffix).toList) : isPlain c = true ∧ c ≠ '/' := by
  have hsuffix : ∀ c ∈ joltSuffix.toList, isPlain c = true ∧ c ≠ '/' := all_iff_forall_prop.mp rfl
  rw [String.toList_append] at hc
  rcases mem_append.mp hc with hc | hc
  · have hlabel := label_plain hlabels identity hc
    exact ⟨hlabel.1, hlabel.2.2⟩
  · exact hsuffix c hc

/-- A text of a host and what may follow it is cut after the host. -/
theorem fromStr_of_splitOnce {text : String} (hplain : ∀ c ∈ text.toList, isPlain c = true)
    (hsplit : (splitOnce '/' text).getD (text, "") = (P.identityToString identity ++ joltSuffix,
      rest)) :
    fromStr P labelError text = new identity rest := by
  have htrim : trimMatches isWhitespace text = text := by
    refine trimMatches_eq_self fun c hc => ?_
    have h := hplain c hc
    simp only [isPlain, Bool.and_eq_true, Bool.not_eq_true'] at h
    exact h.2
  have hquery : '?' ∉ text.toList := fun hmem => by simpa [isPlain] using hplain _ hmem
  have hfragment : '#' ∉ text.toList := fun hmem => by simpa [isPlain] using hplain _ hmem
  have hdot : '.' ∉ (P.identityToString identity).toList := fun hmem =>
    (label_plain hlabels identity hmem).2.1 rfl
  have hhost : stripSuffix joltSuffix (P.identityToString identity ++ joltSuffix) =
      some (P.identityToString identity) := stripSuffix_eq_some_iff.mpr rfl
  have hparse : P.identityText.parse (P.identityToString identity) = some identity :=
    P.identityText.parse_text identity
  unfold JoltAddress.fromStr
  rw [ensure, if_pos ⟨htrim, hquery, hfragment⟩, ok_bind, hsplit]
  simp only [hhost, okOr, ok_bind]
  rw [ensure, if_pos ⟨hlabels.ne_empty identity, hdot⟩, ok_bind]
  simp only [hparse, ok_bind]

/-- **Reading the text of an address** gives the address whose path is what follows the first
slash. -/
theorem fromStr_toString (identity : IdentityId) (h : StoredPath ("/" ++ rest)) :
    fromStr P labelError (toString P ⟨identity, "/" ++ rest⟩) = .ok ⟨identity, withSlash rest⟩ := by
  have hhost := fun c hc => host_plain hlabels identity (c := c) hc
  have hnoslash : '/' ∉ (P.identityToString identity ++ joltSuffix).toList := fun hmem =>
    (hhost _ hmem).2 rfl
  rw [← new_eq_ok.mpr ⟨h.tail, rfl⟩]
  by_cases hroot : rest = ""
  · subst hroot
    have htext : toString P ⟨identity, "/" ++ ""⟩ =
        P.identityToString identity ++ joltSuffix := if_pos String.append_empty
    rw [htext]
    exact fromStr_of_splitOnce hlabels labelError (fun c hc => (hhost c hc).1)
      (by rw [splitOnce_eq_none hnoslash]; rfl)
  · have hne : ¬ "/" ++ rest = "/" := fun heq => hroot (append_left_cancel (heq.trans (by decide)))
    have htext : toString P ⟨identity, "/" ++ rest⟩ =
        P.identityToString identity ++ joltSuffix ++ ("/" ++ rest) := if_neg hne
    rw [htext]
    refine fromStr_of_splitOnce hlabels labelError (fun c hc => ?_) ?_
    · rw [String.toList_append] at hc
      rcases mem_append.mp hc with hc | hc
      · exact (hhost c hc).1
      · exact h.plain c hc
    · rw [slash_eq_singleton, splitOnce_append hnoslash]
      rfl

/-- Different addresses have different texts. -/
theorem toString_injective {address address' : JoltAddress} (h : StoredPath address.path)
    (h' : StoredPath address'.path)
    (heq : toString P address = toString P address') : address = address' := by
  have htext : ∀ address : JoltAddress, toString P address = P.identityToString address.identity ++
        (String.singleton '.' ++ ("jolt" ++ if address.path = "/" then "" else address.path)) := by
    intro address
    have hsuffix : joltSuffix = String.singleton '.' ++ "jolt" := by decide
    unfold JoltAddress.toString
    rw [hsuffix]
    split_ifs <;> simp only [String.append_assoc, String.append_empty]
  have hdot : ∀ identity, '.' ∉ (P.identityToString identity).toList := fun identity hmem =>
    (label_plain hlabels identity hmem).2.1 rfl
  -- both texts are cut at the first dot, which is the one behind the label
  have hsplit := congrArg (splitOnce '.') heq
  rw [htext, htext, splitOnce_append (hdot _), splitOnce_append (hdot _), Option.some.injEq,
    Prod.mk.injEq] at hsplit
  obtain ⟨hidentity, hpath⟩ := hsplit
  have hnonempty : ∀ {path : String}, StoredPath path → path ≠ "" := by
    rintro _ h rfl
    exact absurd h.slash (by decide)
  have hpath := append_left_cancel hpath
  have hsame : address.path = address'.path := by
    split_ifs at hpath with hroot hroot' hroot'
    · rw [hroot, hroot']
    · exact absurd hpath.symm (hnonempty h')
    · exact absurd hpath (hnonempty h)
    · exact hpath
  obtain ⟨identity, path⟩ := address
  obtain ⟨identity', path'⟩ := address'
  obtain rfl : identity = identity' := P.identityText.text_injective hidentity
  obtain rfl : path = path' := hsame
  rfl

end

/-! ### Resolving a shown address -/

/-- A text is read as an address and looked up in the merged state; there is no outcome for a text
that is not an address. -/
def resolveText (P : Primitives) (labelError : String → String) (merged : MergedDeviceIdentityState)
    (text : String) : Option (Except DeviceWriterLogError UpdateLog.ResolvedJoltTarget) :=
  (fromStr P labelError text).toOption.map (resolveMergedDeviceJoltAddress · merged)

theorem path_eq_of_resolve_eq {merged : MergedDeviceIdentityState} {path path' : String}
    (h : resolveMergedDeviceJoltAddress ⟨merged.identity, path⟩ merged =
      resolveMergedDeviceJoltAddress ⟨merged.identity, path'⟩ merged) : path = path' := by
  have houtcome : ∀ path : String, (∃ contentId, resolveMergedDeviceJoltAddress ⟨merged.identity,
    path⟩ merged =
          .ok ⟨merged.identity, path, contentId, []⟩) ∨
        resolveMergedDeviceJoltAddress ⟨merged.identity, path⟩ merged =
          .error (.pathNotFound path) ∨
        resolveMergedDeviceJoltAddress ⟨merged.identity, path⟩ merged =
          .error (.pathTombstoned path) := by
    intro path
    unfold resolveMergedDeviceJoltAddress
    rw [ensure, if_pos rfl, ok_bind]
    cases merged.singletonPaths[path]? with
    | none => exact .inr (.inl rfl)
    | some entry =>
      simp only [okOr, ok_bind]
      cases entry.state with
      | present contentId => exact .inl ⟨contentId, rfl⟩
      | tombstone => exact .inr (.inr rfl)
  rcases houtcome path with ⟨_, h₁⟩ | h₁ | h₁ <;> rcases houtcome path' with ⟨_, h₂⟩ | h₂ | h₂ <;>
    rw [h₁, h₂] at h <;> cases h <;> rfl

theorem startsWith_slash_of_validatePath (h : validatePath identity path = .ok ()) :
    startsWith path "/" = true := by
  simp only [validatePath, bind_eq_ok, ensure_eq_ok] at h
  obtain ⟨_, -, hhead, -⟩ := h
  exact startsWith_slash_iff.mpr hhead

/-- **When addresses survive being shown and read**: exactly those whose path was not given with two
slashes at its start are read back, and exactly those resolve through their text to what their path
resolves to. Different addresses always have different texts. -/
theorem shown_address_iff {P : Primitives} (hlabels : Base32Labels P) (labelError : String → String)
    {identity : IdentityId} {raw : String} {address : JoltAddress}
    (hnew : JoltAddress.new identity raw = .ok address) :
    (JoltAddress.fromStr P labelError (JoltAddress.toString P address) = .ok address ↔
        startsWith raw "//" = false) ∧
      (∀ identity' raw' address', JoltAddress.new identity' raw' = .ok address' →
        JoltAddress.toString P address = JoltAddress.toString P address' → address = address') ∧
      (validatePath identity raw = .ok () → ∀ merged, merged.identity = identity →
        (resolveText P labelError merged (JoltAddress.toString P address) =
            some (resolveMergedDeviceJoltAddress ⟨identity, raw⟩ merged) ↔
          startsWith raw "//" = false)) := by
  obtain ⟨hstored, rfl⟩ := new_eq_ok.mp hnew
  obtain ⟨rest, hrest⟩ := withSlash_eq raw
  have hread := fromStr_toString hlabels labelError identity (hrest ▸ hstored)
  rw [startsWith_slashes hrest, ← withSlash_eq_iff, hrest]
  refine ⟨?_, fun identity' raw' address' hnew' hsame => ?_, fun hvalid merged hmerged => ?_⟩
  · rw [hread, Except.ok.injEq, mk.injEq, and_iff_right rfl]
  · obtain ⟨hstored', rfl⟩ := new_eq_ok.mp hnew'
    exact toString_injective hlabels (hrest ▸ hstored) hstored' hsame
  · subst hmerged
    obtain rfl : raw = "/" ++ rest :=
      (withSlash_of_startsWith (startsWith_slash_of_validatePath hvalid)).symm.trans hrest
    rw [resolveText, hread]
    constructor
    · exact fun h => path_eq_of_resolve_eq (Option.some.inj h)
    · intro h
      rw [h]
      rfl

theorem sample_labels : Base32Labels primitives where
  ne_empty identity h := by
    have hlength := congrArg (fun s : String => s.toList.length) h
    simp [Primitives.identityToString, primitives, identityText, base32Text,
      Base32.encode, Base32.width, identity.publicKey.length_bytes] at hlength
  letters identity c hc := by
    have hletter : ∀ d : Fin 32, Base32.letter d ∈ base32Letters := by decide
    simp only [Primitives.identityToString, primitives, identityText, base32Text,
      nil_append, String.toList_ofList, Base32.encode, mem_map] at hc
    obtain ⟨d, hd, rfl⟩ := hc
    exact hletter ⟨d, Base32.lt_of_mem_beDigits (by decide) hd⟩

theorem shown_address_note : JoltAddress.fromStr primitives id
      (JoltAddress.toString primitives ⟨owner, "/a//b/"⟩) = .ok ⟨owner, "/a//b/"⟩ :=
  (shown_address_iff sample_labels id (show new owner "a//b/" = .ok _ from rfl)).1.mpr
    (by decide)

def slashedNote : DeviceWriterLogEntry := Sample.entry (key 1) "laptop" 0 none
    (Sample.setSingleton "//note" 1) []

/-- An entry at `//note` is taken and merged, but the address of that path, when it is shown and
read again, resolves `/note`, where there is nothing. -/
theorem slashed_note_not_found : ∃ merged, mergeDeviceWriterLogs primitives twoDevices
    [[slashedNote]] = .ok merged ∧
      JoltAddress.new owner "//note" = .ok ⟨owner, "//note"⟩ ∧
      validatePath owner "//note" = .ok () ∧
      JoltAddress.fromStr primitives id (JoltAddress.toString primitives ⟨owner, "//note"⟩) =
        .ok ⟨owner, "/note"⟩ ∧
      resolveMergedDeviceJoltAddress ⟨owner, "//note"⟩ merged = .ok ⟨owner, "//note",
        content 1, []⟩ ∧
      resolveText primitives id merged
        (JoltAddress.toString primitives ⟨owner, "//note"⟩) =
          some (.error (.pathNotFound "/note")) := by
  have hstored : StoredPath ("/" ++ "/note") := ⟨by decide, all_eq_true.mp rfl, by decide⟩
  have hread := fromStr_toString sample_labels id owner hstored
  have hmerged : ((mergeDeviceWriterLogs primitives twoDevices
      [[slashedNote]]).toOption.map fun merged =>
        (merged.identity, merged.singletonPaths[("//note" : String)]?.map (·.state),
          merged.singletonPaths[("/note" : String)]?.map (·.state))) =
      some (owner, some (.present (content 1)), none) := by
    decide +kernel
  obtain ⟨merged, hok, hfacts⟩ := exists_eq_ok_of_toOption_map hmerged
  simp only [Prod.mk.injEq, Option.map_eq_none_iff] at hfacts
  obtain ⟨hidentity, hslashed, hnote⟩ := hfacts
  obtain ⟨entry, hentry, hstate⟩ := Option.map_eq_some_iff.mp hslashed
  refine ⟨merged, hok, rfl, rfl, hread, ?_, ?_⟩
  · unfold resolveMergedDeviceJoltAddress
    rw [ensure, if_pos hidentity.symm, ok_bind, hentry]
    simp only [okOr, ok_bind, hstate, hidentity]
    rfl
  · have htext : ("//note" : String) = "/" ++ "/note" := by decide
    rw [resolveText, htext, hread]
    show some (resolveMergedDeviceJoltAddress ⟨owner, "/note"⟩ merged) = _
    unfold resolveMergedDeviceJoltAddress
    rw [ensure, if_pos hidentity.symm, ok_bind, hnote]
    rfl

end Jolt.Core.AddressText
