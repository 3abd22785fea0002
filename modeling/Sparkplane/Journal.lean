import Mathlib.Data.List.Basic

/-!
# The emergency journal

`append_emergency_record` appends one line of JSON, `read_emergency_records`
splits the file at newlines and decodes every line or fails. An append that is
interrupted leaves a prefix of its line, and the next append goes on from there.
`journal_survives_iff` says which interrupted appends the reader survives.

Not modelled: the file's type and mode, which nothing here changes.
-/

namespace Sparkplane

abbrev Bytes := List UInt8

def newline : UInt8 := 10

def maxJournalBytes : Nat := 8 * 1024 * 1024

inductive SampleError where
  | unavailable
  | invalid

/-- `serde_json` on the records of a journal: what it writes has no newline and is
read back; the start of a record is no record, and neither are several starts of
records put one after another. -/
structure Codec (ρ : Type) where
  encode : ρ → Bytes
  decode : Bytes → Option ρ
  nonempty : ∀ r, encode r ≠ []
  one_line : ∀ r, newline ∉ encode r
  round_trip : ∀ r, decode (encode r) = some r
  whole : ∀ r p, p <+: encode r → decode p ≠ none → p = encode r
  no_glue : ∀ pieces : List Bytes, (∀ p ∈ pieces, p ≠ [] ∧ ∃ r, p <+: encode r) →
    decode pieces.flatten ≠ none → pieces.length = 1

namespace Journal

section
variable {ρ : Type} (C : Codec ρ)

def line (r : ρ) : Bytes := C.encode r ++ [newline]

def appendEmergencyRecord (file : Option Bytes) (r : ρ) : Option Bytes := some (file.getD [] ++ line C r)

def decodeLine (l : Bytes) : Except SampleError ρ :=
  match C.decode l with
  | some r => .ok r
  | none => .error .invalid

def decodeLines (ls : List Bytes) : Except SampleError (List ρ) :=
  (ls.filter fun l => !l.isEmpty).mapM (decodeLine C)

def readEmergencyRecords : Option Bytes → Except SampleError (List ρ)
  | none => .ok []
  | some bytes => if maxJournalBytes < bytes.length then .error .invalid else decodeLines C (bytes.splitOn newline)

/-! ## Interrupted appends -/

inductive Append (ρ : Type) where
  | complete (r : ρ)
  /-- The crash left `k` bytes of the line. -/
  | torn (r : ρ) (k : Nat)

def Append.left : Append ρ → Bytes
  | .complete r => line C r
  | .torn r k => (line C r).take k

def Append.on (file : Option Bytes) : Append ρ → Option Bytes
  | .complete r => appendEmergencyRecord C file r
  | .torn r k => some (file.getD [] ++ (line C r).take k)

def journal (appends : List (Append ρ)) : Option Bytes := appends.foldl (Append.on C) none

def completed (appends : List (Append ρ)) : List ρ :=
  appends.filterMap fun
    | .complete r => some r
    | .torn _ _ => none

/-- Every interrupted append left nothing or its whole line; the last one to leave
anything may lack the newline. -/
def Intact : List (Append ρ) → Prop
  | [] => True
  | .complete _ :: rest => Intact rest
  | .torn r k :: rest =>
    if k = 0 ∨ (C.encode r).length < k then Intact rest
    else k = (C.encode r).length ∧ ∀ a ∈ rest, a.left C = []

def pieces : List Bytes → List (Append ρ) → List (List Bytes)
  | q, [] => [q]
  | q, .complete r :: rest => (q ++ [C.encode r]) :: pieces [] rest
  | q, .torn r k :: rest =>
    if k = 0 then pieces q rest
    else if (C.encode r).length < k then (q ++ [C.encode r]) :: pieces [] rest
    else pieces (q ++ [(C.encode r).take k]) rest

variable {r : ρ} {appends : List (Append ρ)} {k : Nat} {l : Bytes} {q : List Bytes}

theorem take_line : (line C r).take k =
    if (C.encode r).length < k then line C r else (C.encode r).take k := by
  unfold line
  split
  · rename_i h
    exact List.take_of_length_le (by rw [List.length_append]; exact h)
  · rename_i h
    exact List.take_append_of_le_length (Nat.le_of_not_lt h)

theorem journal_eq : ∀ (appends : List (Append ρ)) (b : Bytes),
    appends.foldl (Append.on C) (some b) = some (b ++ appends.flatMap (Append.left C))
  | [], b => by simp
  | a :: rest, b => by
    have ha : a.on C (some b) = some (b ++ a.left C) := by cases a <;> rfl
    rw [List.foldl_cons, ha, journal_eq rest, List.flatMap_cons, List.append_assoc]

theorem splitOn_pieces : ∀ (appends : List (Append ρ)) (q : List Bytes), (∀ p ∈ q, newline ∉ p) →
    (q.flatten ++ appends.flatMap (Append.left C)).splitOn newline = (pieces C q appends).map List.flatten
  | [], q, hq => by
    rw [List.flatMap_nil, List.append_nil]
    exact List.splitOn_eq_singleton (by simpa using hq)
  | a :: rest, q, hq => by
    have hline : ∀ r, (q.flatten ++ (line C r ++ rest.flatMap (Append.left C))).splitOn newline =
        ((q ++ [C.encode r]) :: pieces C [] rest).map List.flatten := fun r => by
      have hno : newline ∉ (q ++ [C.encode r]).flatten := by
        simpa using ⟨fun p hp => hq p hp, C.one_line r⟩
      have hrest := splitOn_pieces rest [] nofun
      rw [List.map_cons, ← hrest, ← List.splitOn_append_cons_self_of_not_mem hno]
      simp [line]
    rw [List.flatMap_cons]
    cases a with
    | complete r => exact hline r
    | torn r k =>
      show (q.flatten ++ ((line C r).take k ++ _)).splitOn newline = _
      unfold pieces
      by_cases h0 : k = 0
      · rw [if_pos h0, h0, List.take_zero, List.nil_append]
        exact splitOn_pieces rest q hq
      · rw [if_neg h0, take_line]
        by_cases hk : (C.encode r).length < k
        · rw [if_pos hk, if_pos hk]
          exact hline r
        · rw [if_neg hk, if_neg hk]
          have hq' : ∀ p ∈ q ++ [(C.encode r).take k], newline ∉ p := fun p hp => by
            rcases List.mem_append.mp hp with hp | hp
            · exact hq p hp
            · rw [List.mem_singleton.mp hp]
              exact fun hm => C.one_line r (List.mem_of_mem_take hm)
          rw [← splitOn_pieces rest _ hq']
          simp

/-! ## What the reader makes of the pieces -/

variable {C}

theorem decodeLines_cons (hl : l ≠ []) (ls : List Bytes) : decodeLines C (l :: ls) =
    (do let r ← decodeLine C l
        let rs ← decodeLines C ls
        pure (r :: rs)) := by
  unfold decodeLines
  rw [List.filter_cons, if_pos (by simpa using hl), List.mapM_cons]

theorem decodeLines_inv (hl : l ≠ []) {ls : List Bytes} {rs : List ρ}
    (h : decodeLines C (l :: ls) = .ok rs) : C.decode l ≠ none ∧ ∃ rs', decodeLines C ls = .ok rs' := by
  rw [decodeLines_cons hl] at h
  unfold decodeLine at h
  cases hd : C.decode l with
  | none => rw [hd] at h; cases h
  | some r =>
    rw [hd] at h
    cases hls : decodeLines C ls with
    | error e => rw [hls] at h; cases h
    | ok rs' => exact ⟨nofun, rs', rfl⟩

theorem decodeLines_whole (r : ρ) (ls : List Bytes) {rs : List ρ} (h : decodeLines C ls = .ok rs) :
    decodeLines C ([C.encode r].flatten :: ls) = .ok (r :: rs) := by
  rw [List.flatten_singleton, decodeLines_cons (C.nonempty r), decodeLine, C.round_trip r, h]
  rfl

variable (C) in
def Started (q : List Bytes) : Prop := ∀ p ∈ q, p ≠ [] ∧ ∃ r, p <+: C.encode r

theorem Started.snoc (h : Started C q) {p : Bytes} (hp : p ≠ []) (hr : p <+: C.encode r) :
    Started C (q ++ [p]) := fun p' hp' => by
  rcases List.mem_append.mp hp' with hp' | hp'
  · exact h p' hp'
  · rw [List.mem_singleton.mp hp']
    exact ⟨hp, r, hr⟩

theorem Started.flatten_ne (h : Started C q) (hq : q ≠ []) : q.flatten ≠ [] := by
  obtain ⟨p, q', rfl⟩ := List.exists_cons_of_ne_nil hq
  have hp := (h p (List.mem_cons_self ..)).1
  simp [hp]

theorem take_started (h0 : k ≠ 0) : (C.encode r).take k ≠ [] := by
  simpa [h0] using C.nonempty r

theorem alone_of_read : ∀ (appends : List (Append ρ)) {q : List Bytes} {rs : List ρ}, q ≠ [] →
    Started C q → decodeLines C ((pieces C q appends).map List.flatten) = .ok rs →
    q.length = 1 ∧ C.decode q.flatten ≠ none ∧ ∀ a ∈ appends, a.left C = []
  | [], q, rs, hq, hs, h => by
    obtain ⟨hd, _⟩ := decodeLines_inv (hs.flatten_ne hq) h
    exact ⟨C.no_glue q hs hd, hd, nofun⟩
  | a :: rest, q, rs, hq, hs, h => by
    have hlong : ∀ p, (q ++ [p]).length ≠ 1 := fun p e => by
      rw [List.length_append] at e
      exact hq (List.length_eq_zero_iff.mp (by simpa using e))
    have hclosed : ∀ r, decodeLines C (((q ++ [C.encode r]) :: pieces C [] rest).map List.flatten) ≠ .ok rs :=
      fun r hr => by
        have hs' := hs.snoc (C.nonempty r) (List.prefix_refl _)
        obtain ⟨hd, _⟩ := decodeLines_inv (hs'.flatten_ne (by simp)) hr
        exact hlong _ (C.no_glue _ hs' hd)
    cases a with
    | complete r => exact absurd h (hclosed r)
    | torn r k =>
      unfold pieces at h
      split at h
      · rename_i h0
        obtain ⟨hlen, hd, hnothing⟩ := alone_of_read rest hq hs h
        refine ⟨hlen, hd, fun a ha => ?_⟩
        rcases List.mem_cons.mp ha with rfl | ha
        · rw [Append.left, h0, List.take_zero]
        · exact hnothing a ha
      · rename_i h0
        split at h
        · exact absurd h (hclosed r)
        · have hs' := hs.snoc (take_started h0) (List.take_prefix k (C.encode r))
          exact absurd (alone_of_read rest (by simp) hs' h).1 (hlong _)

theorem intact_of_read : ∀ (appends : List (Append ρ)) {rs : List ρ},
    decodeLines C ((pieces C [] appends).map List.flatten) = .ok rs → Intact C appends
  | [], _, _ => trivial
  | .complete r :: rest, rs, h => by
    obtain ⟨_, rs', h'⟩ := decodeLines_inv (by simpa using C.nonempty r) h
    exact intact_of_read rest h'
  | .torn r k :: rest, rs, h => by
    unfold pieces at h
    unfold Intact
    by_cases h0 : k = 0
    · rw [if_pos h0] at h
      rw [if_pos (.inl h0)]
      exact intact_of_read rest h
    · rw [if_neg h0] at h
      by_cases hk : (C.encode r).length < k
      · rw [if_pos hk] at h
        rw [if_pos (.inr hk)]
        obtain ⟨_, rs', h'⟩ := decodeLines_inv (by simpa using C.nonempty r) h
        exact intact_of_read rest h'
      · rw [if_neg hk] at h
        rw [if_neg (by simp [h0, hk])]
        have hp := List.take_prefix k (C.encode r)
        have hnil : Started C [] := fun _ hm => nomatch hm
        have hs := hnil.snoc (take_started h0) hp
        obtain ⟨_, hd, hnothing⟩ := alone_of_read rest (by simp) hs h
        have hwhole := C.whole r _ hp (by simpa using hd)
        have hlen := congrArg List.length hwhole
        rw [List.length_take] at hlen
        exact ⟨by omega, hnothing⟩

theorem completed_nothing (h : ∀ a ∈ appends, a.left C = []) : completed appends = [] := by
  refine List.filterMap_eq_nil_iff.mpr fun a ha => ?_
  cases a with
  | complete r => exact absurd (h _ ha) (by simp [Append.left, line])
  | torn r k => rfl

theorem pieces_nothing : ∀ {appends : List (Append ρ)} {q : List Bytes}, (∀ a ∈ appends, a.left C = []) →
    pieces C q appends = [q]
  | [], _, _ => rfl
  | .complete r :: rest, _, h => absurd (h _ (List.mem_cons_self ..)) (by simp [Append.left, line])
  | .torn r k :: rest, q, h => by
    have hk : k = 0 := by simpa [Append.left, line] using h _ (List.mem_cons_self ..)
    unfold pieces
    rw [if_pos hk]
    exact pieces_nothing fun a ha => h a (List.mem_cons_of_mem _ ha)

theorem read_of_intact : ∀ (appends : List (Append ρ)), Intact C appends → ∃ rs,
    decodeLines C ((pieces C [] appends).map List.flatten) = .ok rs ∧ (completed appends).Sublist rs
  | [], _ => ⟨[], rfl, .slnil⟩
  | .complete r :: rest, h => by
    obtain ⟨rs, hrs, hsub⟩ := read_of_intact rest h
    exact ⟨r :: rs, decodeLines_whole r _ hrs, hsub.cons_cons r⟩
  | .torn r k :: rest, h => by
    unfold Intact at h
    unfold pieces
    by_cases h0 : k = 0
    · rw [if_pos (.inl h0)] at h
      rw [if_pos h0]
      exact read_of_intact rest h
    · rw [if_neg h0]
      by_cases hk : (C.encode r).length < k
      · rw [if_pos (.inr hk)] at h
        rw [if_pos hk]
        obtain ⟨rs, hrs, hsub⟩ := read_of_intact rest h
        exact ⟨r :: rs, decodeLines_whole r _ hrs, hsub.cons r⟩
      · rw [if_neg (by simp [h0, hk])] at h
        obtain ⟨rfl, hnothing⟩ := h
        rw [if_neg hk, pieces_nothing hnothing, List.take_length]
        refine ⟨[r], decodeLines_whole r [] rfl, ?_⟩
        show (completed rest).Sublist [r]
        rw [completed_nothing hnothing]
        exact List.nil_sublist _

theorem readEmergencyRecords_journal (hsize : ((journal C appends).getD []).length ≤ maxJournalBytes) :
    readEmergencyRecords C (journal C appends) = decodeLines C ((pieces C [] appends).map List.flatten) := by
  cases appends with
  | nil => rfl
  | cons a rest =>
    have ha : a.on C none = some (a.left C) := by cases a <;> rfl
    have hfile : journal C (a :: rest) = some ((a :: rest).flatMap (Append.left C)) := by
      rw [journal, List.foldl_cons, ha, journal_eq, List.flatMap_cons]
    rw [hfile] at hsize ⊢
    rw [readEmergencyRecords, if_neg (Nat.not_lt.mpr (show (List.flatMap _ _).length ≤ _ from hsize)), ← splitOn_pieces C (a :: rest) [] nofun]
    rfl

variable (C)

theorem journal_survives_iff (appends : List (Append ρ))
    (hsize : ((journal C appends).getD []).length ≤ maxJournalBytes) :
    (∃ rs, readEmergencyRecords C (journal C appends) = .ok rs ∧ (completed appends).Sublist rs) ↔
      Intact C appends := by
  rw [readEmergencyRecords_journal hsize]
  exact ⟨fun ⟨_, h, _⟩ => intact_of_read appends h, read_of_intact appends⟩

end

/-! ## One record -/

def soleCodec (text : Bytes) (hne : text ≠ []) (hline : newline ∉ text)
    (hborder : ∀ k < text.length, k ≠ 0 → text.take k ≠ text.drop (text.length - k)) : Codec Unit where
  encode _ := text
  decode b := if b = text then some () else none
  nonempty _ := hne
  one_line _ := hline
  round_trip _ := if_pos rfl
  whole _ p _ hd := by
    by_contra hp
    exact hd (if_neg hp)
  no_glue pieces hs hd := by
    have hflat : pieces.flatten = text := by
      by_contra hp
      exact hd (if_neg hp)
    -- the last piece is a start of the text and also its end
    rcases List.eq_nil_or_concat pieces with rfl | ⟨front, p, rfl⟩
    · exact absurd hflat.symm hne
    · obtain ⟨hp, _, hpre⟩ := hs p (by simp)
      cases front with
      | nil => rfl
      | cons p' front =>
        have hp' := List.length_pos_iff.mpr (hs p' (by simp)).1
        rw [List.concat_eq_append, List.flatten_append, List.flatten_singleton] at hflat
        have hlen : ((p' :: front).flatten ++ p).length = text.length := congrArg List.length hflat
        rw [List.length_append, List.flatten_cons, List.length_append] at hlen
        refine absurd ?_ (hborder p.length (by omega) (by simpa using hp))
        rw [← List.prefix_iff_eq_take.mp hpre, ← hflat, List.length_append, Nat.add_sub_cancel, List.drop_left]

@[irreducible] def exampleText : Bytes :=
  ["\x7b\"schema\":", "\"sparkplane.emergency-record/v1\"", ",\"event_id\":", "\"01JAAAAAAAAAAAAAAAAAAAAAAA\"",
    ",\"occurred_at_unix_ms\":1", ",\"decision\":", "\x7b\"schema\":", "\"sparkplane.emergency-decision/v1\"",
    ",\"instance_id\":", "\"i_62c66a7a5dd70c3146618063c344e531\"", ",\"generation\":1",
    ",\"cause\":\"memory-available-floor\"", ",\"mem_available_bytes\":0",
    ",\"memory_full_psi_avg10_percent\":0.0\x7d\x7d"].flatMap fun s => s.toList.map fun c => UInt8.ofNat c.toNat

theorem exampleText_sole : 12 < exampleText.length ∧ exampleText.length < 1000 ∧ newline ∉ exampleText ∧
    ∀ k < exampleText.length, k ≠ 0 → exampleText.take k ≠ exampleText.drop (exampleText.length - k) := by
  decide +kernel

def exampleCodec : Codec Unit :=
  soleCodec exampleText (fun h => by simpa [h] using exampleText_sole.1) exampleText_sole.2.2.1 exampleText_sole.2.2.2

theorem example_size (a b : Append Unit) : ((journal exampleCodec [a, b]).getD []).length ≤ maxJournalBytes := by
  have hleft : ∀ a : Append Unit, (a.left exampleCodec).length ≤ 1000 := fun a => by
    have hline : (line exampleCodec ()).length ≤ 1000 := by
      rw [line, List.length_append]
      exact exampleText_sole.2.1
    cases a with
    | complete r => exact hline
    | torn r k => exact Nat.le_trans (List.length_take_le' k _) hline
  have hon : a.on exampleCodec none = some (a.left exampleCodec) := by cases a <;> rfl
  have hfile : journal exampleCodec [a, b] = some (a.left exampleCodec ++ b.left exampleCodec) := by
    rw [journal, List.foldl_cons, hon, journal_eq, List.flatMap_singleton]
  rw [hfile, Option.getD_some, List.length_append]
  have ha := hleft a
  have hb := hleft b
  unfold maxJournalBytes
  omega

theorem journal_survives_at_end : ∃ rs, readEmergencyRecords exampleCodec
    (journal exampleCodec [.complete (), .torn () exampleText.length]) = .ok rs ∧ [()].Sublist rs := by
  refine (journal_survives_iff exampleCodec [.complete (), .torn () exampleText.length] (example_size _ _)).mpr ?_
  have h := exampleText_sole.1
  show if exampleText.length = 0 ∨ exampleText.length < exampleText.length then True
    else exampleText.length = exampleText.length ∧ _
  rw [if_neg (by omega)]
  exact ⟨rfl, nofun⟩

/-- The first append leaves twelve bytes, and the second one, complete, is lost with it. -/
theorem torn_append_loses_next : completed [Append.torn () 12, .complete ()] = [()] ∧
    ((journal exampleCodec [.torn () 12, .complete ()]).getD []).length ≤ maxJournalBytes ∧
    ∀ rs, readEmergencyRecords exampleCodec (journal exampleCodec [.torn () 12, .complete ()]) ≠ .ok rs := by
  refine ⟨rfl, example_size _ _, fun rs h => ?_⟩
  rw [readEmergencyRecords_journal (example_size _ _)] at h
  have hintact : (if 12 = 0 ∨ exampleText.length < 12 then True
    else 12 = exampleText.length ∧ _) := intact_of_read _ h
  have hlen := exampleText_sole.1
  rw [if_neg (by omega)] at hintact
  omega

end Journal

end Sparkplane
