import Sparkplane.GeneratedFiles

/-!
# Ownership of the generated files

`overwritten_ours`: what `publish` overwrites and `remove` deletes is the content of an earlier payload,
foreign lines apart.
-/

namespace Sparkplane.Generated

open Prog

variable {lines : List (List Char)} {name : GenFile} {bytes profile catalog : ByteArray} {b : Bool}
variable {e : GenError} {β : Type} {n : Nat}

/-! ## Lines -/

inductive Lines : List (List Char) → Prop
  | nil : Lines []
  | last {line : List Char} : line ≠ [] → '\n' ∉ line → Lines [line]
  | cons {body : List Char} {lines : List (List Char)} : '\n' ∉ body → Lines lines → Lines ((body ++ ['\n']) :: lines)

theorem Lines.filter {keep : List Char → Bool} (h : Lines lines) : Lines (lines.filter keep) := by
  induction h with
  | nil => exact .nil
  | last hne hn =>
    rw [List.filter_cons]
    split
    · exact .last hne hn
    · exact .nil
  | cons hn _ ih =>
    rw [List.filter_cons]
    split
    · exact .cons hn ih
    · exact ih

theorem splitInclusive_line {body : List Char} (hn : '\n' ∉ body) (rest : List Char) :
    splitInclusive (body ++ '\n' :: rest) = (body ++ ['\n']) :: splitInclusive rest := by
  induction body with
  | nil => rfl
  | cons c body ih =>
    have hc : c ≠ '\n' := fun h => hn (h ▸ List.mem_cons_self)
    rw [List.cons_append, splitInclusive, if_neg hc, ih fun h => hn (List.mem_cons_of_mem c h)]
    rfl

theorem splitInclusive_last {line : List Char} (hne : line ≠ []) (hn : '\n' ∉ line) : splitInclusive line = [line] := by
  induction line with
  | nil => exact absurd rfl hne
  | cons c line ih =>
    have hc : c ≠ '\n' := fun h => hn (h ▸ List.mem_cons_self)
    rw [splitInclusive, if_neg hc]
    cases line with
    | nil => rfl
    | cons d line => rw [ih (List.cons_ne_nil d line) fun h => hn (List.mem_cons_of_mem c h)]

theorem Lines.splitInclusive_flatten (h : Lines lines) : splitInclusive lines.flatten = lines := by
  induction h with
  | nil => rfl
  | last hne hn => simpa using splitInclusive_last hne hn
  | cons hn _ ih =>
    rw [List.flatten_cons, List.append_assoc, List.singleton_append, splitInclusive_line hn, ih]

theorem splitInclusive_flatten : ∀ text : List Char, (splitInclusive text).flatten = text
  | [] => rfl
  | c :: cs => by
    have ih := splitInclusive_flatten cs
    rw [splitInclusive]
    split
    · rw [List.flatten_cons, ih]
      rfl
    · cases hs : splitInclusive cs with
      | nil =>
        rw [hs] at ih
        simp [← ih]
      | cons line lines =>
        rw [hs] at ih
        simp [← ih]

theorem splitInclusive_lines (text : List Char) : Lines (splitInclusive text) := by
  induction text with
  | nil => exact .nil
  | cons c cs ih =>
    rw [splitInclusive]
    split
    · next hc =>
      subst hc
      exact @Lines.cons [] _ List.not_mem_nil ih
    · next hc =>
      cases hs : splitInclusive cs with
      | nil => exact .last (List.cons_ne_nil _ _) (by simpa using fun h => hc h.symm)
      | cons line lines =>
        rw [hs] at ih
        cases ih with
        | last hne hn => exact .last (List.cons_ne_nil _ _) (List.not_mem_cons_of_ne_of_not_mem (fun h => hc h.symm) hn)
        | cons hn hl => exact .cons (List.not_mem_cons_of_ne_of_not_mem (fun h => hc h.symm) hn) hl

def Ended (text : List Char) : Prop := text = [] ∨ ∃ body, text = body ++ ['\n']

theorem splitInclusive_append {a : List Char} (ha : Ended a) (b : List Char) :
    splitInclusive (a ++ b) = splitInclusive a ++ splitInclusive b := by
  rcases ha with rfl | ⟨body, rfl⟩
  · rfl
  · induction body with
    | nil => rfl
    | cons c body ih =>
      rw [List.cons_append, List.cons_append, splitInclusive, splitInclusive, ih]
      split
      · rfl
      · cases hs : splitInclusive (body ++ ['\n']) with
        | nil =>
          have := splitInclusive_flatten (body ++ ['\n'])
          rw [hs] at this
          simp at this
        | cons line lines => rfl

theorem fromUTF8?_toUTF8 (text : String) : String.fromUTF8? text.toUTF8 = some text := by
  have hvalid : text.toUTF8.IsValidUTF8 := text.isValidUTF8
  rw [String.fromUTF8?, dif_pos hvalid]
  rfl

section
variable {δ : Type} (K : Kit δ)

theorem keptText_keptText (text : String) : keptText K (keptText K text) = keptText K text := by
  unfold keptText
  rw [String.toList_ofList, (splitInclusive_lines text.toList).filter.splitInclusive_flatten, List.filter_filter]
  simp

theorem withoutForeign_idem (bytes : ByteArray) :
    withoutForeignAssignments K (withoutForeignAssignments K bytes) = withoutForeignAssignments K bytes := by
  unfold withoutForeignAssignments
  cases hb : String.fromUTF8? bytes with
  | none => simp only [hb]
  | some text => simp only [fromUTF8?_toUTF8, keptText_keptText]

/-- A foreign line is added to a text, at the start of a line; only at the end of the text can it lack its end. -/
inductive AddsLine : ByteArray → ByteArray → Prop
  | intro {a line b : List Char} : Ended a → foreignAssignment K line = true →
      (∃ body, '\n' ∉ body ∧ line = body ++ ['\n']) ∨ ('\n' ∉ line ∧ b = []) →
      AddsLine (String.ofList (a ++ b)).toUTF8 (String.ofList (a ++ (line ++ b))).toUTF8

theorem AddsLine.without {x y : ByteArray} (h : AddsLine K x y) :
    withoutForeignAssignments K y = withoutForeignAssignments K x := by
  obtain @⟨a, line, b, ha, hforeign, hline⟩ := h
  have hne : line ≠ [] := by
    rintro rfl
    simp [foreignAssignment, trim] at hforeign
  have hsplit : splitInclusive (line ++ b) = line :: splitInclusive b := by
    rcases hline with ⟨body, hn, rfl⟩ | ⟨hn, rfl⟩
    · rw [List.append_assoc]
      exact splitInclusive_line hn b
    · rw [List.append_nil]
      exact splitInclusive_last hne hn
  simp only [withoutForeignAssignments, fromUTF8?_toUTF8, keptText, String.toList_ofList, splitInclusive_append ha,
    hsplit, List.filter_append, List.filter_cons, hforeign]
  rfl

end

/-! ## Homes, payloads and what was destroyed -/

def Home.put {δ : Type} (h : Home δ) (name : GenFile) (slot : Slot) : Home δ :=
  { h with slot := Function.update h.slot name slot }

/-- With the payloads so far for each file, and every content that was overwritten or deleted, with the
payloads there were at that time. -/
structure World (δ : Type) where
  home : Home δ
  payloads : GenFile → List ByteArray
  destroyed : List (GenFile × ByteArray × List ByteArray)

namespace World

variable {δ : Type}

def replace (w : World δ) (name : GenFile) (slot : Slot) : World δ :=
  { w with
    home := w.home.put name slot
    destroyed := match w.home.slot name with
      | .file old => (name, old, w.payloads name) :: w.destroyed
      | _ => w.destroyed }

def setReceipt (w : World δ) (r : Receipt δ) : World δ := { w with home := { w.home with receipt := some r } }

end World

/-- An effect that fails may have been performed, a read apart. -/
def effect {δ : Type} : (op : HomeOp δ) → World δ → op.Reply → World δ → Prop
  | .readReceipt, w, r, w' => w' = w ∧ ∀ a, r = .ok a → a = w.home.receipt
  | .read name, w, r, w' => w' = w ∧ ∀ a, r = .ok a → a = w.home.slot name
  | .rename name bytes, w, (r : Except Unit Unit), w' => w' = w.replace name (.file bytes) ∨ r.isOk = false ∧ w' = w
  | .renameReceipt receipt, w, (r : Except Unit Unit), w' => w' = w.setReceipt receipt ∨ r.isOk = false ∧ w' = w
  | .unlink name, w, (r : Except Unit Unit), w' => w' = w.replace name .absent ∨ r.isOk = false ∧ w' = w
  | .createHome, w, _, w' => w' = w
  | .lock, w, _, w' => w' = w
  | .stage, w, _, w' => w' = w
  | .syncHome, w, _, w' => w' = w

section
variable {δ : Type} [DecidableEq δ] (K : Kit δ)

def claimable (slot : Slot) (name : GenFile) (bytes : ByteArray) (hashes : List δ) : Bool :=
  match slot with
  | .absent => true
  | .file current => current.size ≤ maxBytes && (current = bytes || stillOwned K name current hashes)
  | _ => false

def Home.theReceipt (h : Home δ) : Receipt δ := h.receipt.getD .empty

def publishable (h : Home δ) (profile catalog : ByteArray) : Bool :=
  profile.size ≤ maxBytes && catalog.size ≤ maxBytes && h.theReceipt.valid &&
  claimable K (h.slot .profile) .profile profile (h.theReceipt.owned .profile) &&
  claimable K (h.slot .catalog) .catalog catalog (h.theReceipt.owned .catalog)

def World.called (w : World δ) (profile catalog : ByteArray) : World δ :=
  if publishable K w.home profile catalog then
    { w with payloads := fun name => (match name with | .profile => profile | .catalog => catalog) :: w.payloads name }
  else w

/-- Any sequence of calls, each of which may be cut off, with edits of the two files in between. -/
inductive History : World δ → Prop
  | start {slot : GenFile → Slot} : History ⟨⟨slot, none⟩, fun _ => [], []⟩
  | publish {w w' : World δ} {profile catalog : ByteArray} {r : Except GenError Unit} : History w →
      Ends effect (publish K profile catalog) (w.called K profile catalog) r w' → History w'
  | publishCut {w w' : World δ} {profile catalog : ByteArray} : History w →
      Cut effect (publish K profile catalog) (w.called K profile catalog) w' → History w'
  | remove {w w' : World δ} {r : Except GenError Unit} : History w → Ends effect (remove K) w r w' → History w'
  | removeCut {w w' : World δ} : History w → Cut effect (remove K) w w' → History w'
  | edit {w : World δ} {name : GenFile} {slot : Slot} : History w → History { w with home := w.home.put name slot }

/-- The content is one of the payloads, for the profile once foreign lines are dropped. -/
def Ours (name : GenFile) (bytes : ByteArray) (payloads : List ByteArray) : Prop :=
  bytes ∈ payloads ∨ name = .profile ∧ withoutForeignAssignments K bytes ∈ payloads

structure Inv (w : World δ) : Prop where
  destroyed : ∀ d ∈ w.destroyed, Ours K d.1 d.2.1 d.2.2
  receipt : ∀ r, w.home.receipt = some r → ∀ name, ∀ hash ∈ r.owned name,
    ∃ x, hash = K.sha256 x ∧ Ours K name x (w.payloads name)

variable {K}

theorem ours_of_owned (hsha : Function.Injective K.sha256) {hashes : List δ}
    {payloads : List ByteArray} (hhashes : ∀ hash ∈ hashes, ∃ x, hash = K.sha256 x ∧ Ours K name x payloads)
    (h : stillOwned K name bytes hashes = true) : Ours K name bytes payloads := by
  rcases Bool.or_eq_true _ _ ▸ h with h | h
  · obtain ⟨x, hx, hours⟩ := hhashes _ (by simpa [ownedDigest] using h)
    exact hsha hx ▸ hours
  · simp only [Bool.and_eq_true, decide_eq_true_eq] at h
    obtain ⟨hname, hdigest⟩ := h
    obtain ⟨x, hx, hours⟩ := hhashes _ (by simpa [ownedDigest] using hdigest)
    obtain rfl := hsha hx
    rcases hours with hmem | ⟨_, hmem⟩
    · exact .inr ⟨hname, hmem⟩
    · exact .inr ⟨hname, withoutForeign_idem K bytes ▸ hmem⟩

end

/-! ## What the parts do -/

open Prog (SafeOk)

section
variable {δ α : Type} {w : World δ} {I : World δ → Prop}

theorem orSystem_safe {r : Except Unit α} {P : α → World δ → Prop} (hI : I w) (h : ∀ a, r = .ok a → P a w) :
    SafeOk effect I P (orSystem r) w := by
  cases r with
  | ok a => exact safeOk_pure hI (h a rfl)
  | error u => exact safeOk_throw hI

theorem orSystem_step {next w' : World δ} {r : Except Unit Unit} (hI : I w) (hI' : I next)
    (hop : w' = next ∨ r.isOk = false ∧ w' = w) : SafeOk effect I (fun _ w' => w' = next) (orSystem r) w' := by
  rcases hop with rfl | ⟨hfail, rfl⟩
  · exact orSystem_safe hI' fun _ _ => rfl
  · exact orSystem_safe hI fun a ha => by
      rw [ha] at hfail
      cases hfail

theorem createHome_safe (hI : I w) : SafeOk effect I (fun _ w' => w' = w) createHome w :=
  safeOk_ask_bind hI fun _ _ hop => orSystem_safe (hop.symm ▸ hI) fun _ _ => hop

theorem lock_safe (hI : I w) : SafeOk effect I (fun _ w' => w' = w) lock w :=
  safeOk_ask_bind hI fun _ _ hop => orSystem_safe (hop.symm ▸ hI) fun _ _ => hop

theorem stage_safe (hI : I w) : SafeOk effect I (fun _ w' => w' = w) stage w :=
  safeOk_ask_bind hI fun _ _ hop => orSystem_safe (hop.symm ▸ hI) fun _ _ => hop

theorem syncHome_safe (hI : I w) : SafeOk effect I (fun _ w' => w' = w) syncHome w :=
  safeOk_ask_bind hI fun _ _ hop => orSystem_safe (hop.symm ▸ hI) fun _ _ => hop

theorem readReceipt_safe (hI : I w) : SafeOk effect I (fun r w' => w' = w ∧ r = w.home.receipt) readReceipt w :=
  safeOk_ask_bind hI fun _ _ hop => orSystem_safe (hop.1.symm ▸ hI) fun a ha => ⟨hop.1, hop.2 a ha⟩

theorem readSlot_safe (hI : I w) :
    SafeOk effect I (fun slot w' => w' = w ∧ slot = w.home.slot name) (readSlot name) w :=
  safeOk_ask_bind hI fun _ _ hop => orSystem_safe (hop.1.symm ▸ hI) fun a ha => ⟨hop.1, hop.2 a ha⟩

theorem rename_safe (hI : I w) (hI' : I (w.replace name (.file bytes))) :
    SafeOk effect I (fun _ w' => w' = w.replace name (.file bytes)) (rename name bytes) w :=
  safeOk_ask_bind hI fun _ _ hop => orSystem_step hI hI' hop

theorem unlink_safe (hI : I w) (hI' : I (w.replace name .absent)) :
    SafeOk effect I (fun _ w' => w' = w.replace name .absent) (unlink name) w :=
  safeOk_ask_bind hI fun _ _ hop => orSystem_step hI hI' hop

theorem renameReceipt_safe {receipt : Receipt δ} (hI : I w) (hI' : I (w.setReceipt receipt)) :
    SafeOk effect I (fun _ w' => w' = w.setReceipt receipt) (renameReceipt receipt) w :=
  safeOk_ask_bind hI fun _ _ hop => orSystem_step hI hI' hop

theorem refuse_safe (hI : I w) : SafeOk effect I (fun _ w' => w' = w ∧ b = false) (refuse b e) w := by
  cases b with
  | true => exact safeOk_throw hI
  | false => exact safeOk_pure hI ⟨rfl, rfl⟩

theorem atomic_safe (hI : I w) (hI' : I (w.replace name (.file bytes))) :
    SafeOk effect I (fun _ w' => w' = w.replace name (.file bytes)) (atomic name bytes) w := by
  refine (stage_safe hI).bind ?_
  rintro - w' - rfl
  refine (rename_safe hI hI').bind ?_
  rintro - w1 - rfl
  exact syncHome_safe hI'

theorem atomicReceipt_safe {receipt : Receipt δ} (hI : I w) (hI' : I (w.setReceipt receipt)) :
    SafeOk effect I (fun _ w' => w' = w.setReceipt receipt) (atomicReceipt receipt) w := by
  refine (stage_safe hI).bind ?_
  rintro - w' - rfl
  refine (renameReceipt_safe hI hI').bind ?_
  rintro - w1 - rfl
  exact syncHome_safe hI'

def Finds (slot : Slot) : Option ByteArray → Prop
  | none => slot = .absent
  | some bytes => slot = .file bytes ∧ bytes.size ≤ maxBytes

theorem read_safe (hI : I w) :
    SafeOk effect I (fun found w' => w' = w ∧ Finds (w.home.slot name) found) (read name) w := by
  refine (readSlot_safe hI).bind ?_
  rintro slot w' - ⟨rfl, hslot⟩
  cases slot with
  | absent => exact safeOk_pure hI ⟨rfl, hslot.symm⟩
  | link => exact safeOk_throw hI
  | foreign => exact safeOk_throw hI
  | file bytes =>
    refine (refuse_safe hI).bind ?_
    rintro - w1 - ⟨rfl, hsize⟩
    exact safeOk_pure hI ⟨rfl, hslot.symm, by simpa using hsize⟩

theorem receipt_safe (hI : I w) :
    SafeOk effect I (fun r w' => w' = w ∧ r = w.home.theReceipt ∧ r.valid = true) receipt w := by
  refine (readReceipt_safe hI).bind ?_
  rintro r w' - ⟨rfl, rfl⟩
  refine (refuse_safe hI).bind ?_
  rintro - w1 - ⟨rfl, hvalid⟩
  exact safeOk_pure hI ⟨rfl, rfl, by simpa using hvalid⟩

variable [DecidableEq δ] (K : Kit δ)

def noted (slot : Slot) (bytes : ByteArray) : List δ :=
  match slot with
  | .file current => if K.sha256 current ≠ K.sha256 bytes then [K.sha256 bytes, K.sha256 current] else [K.sha256 bytes]
  | _ => [K.sha256 bytes]

theorem claim_safe {pending : Receipt δ} (hI : I w) :
    SafeOk effect I (fun r w' => w' = w ∧ claimable K (w.home.slot name) name bytes (pending.owned name) = true ∧
      r = pending.insert name (noted K (w.home.slot name) bytes)) (claim K pending name bytes) w := by
  refine (read_safe hI).bind ?_
  rintro found w' - ⟨rfl, hfound⟩
  cases found with
  | none =>
    have hslot : w'.home.slot name = .absent := hfound
    refine safeOk_pure hI ?_
    rw [hslot]
    exact ⟨rfl, rfl, rfl⟩
  | some current =>
    obtain ⟨hslot, hsize⟩ := hfound
    refine (refuse_safe hI).bind ?_
    rintro - w1 - ⟨rfl, howned⟩
    refine safeOk_pure hI ?_
    rw [hslot]
    refine ⟨rfl, ?_, rfl⟩
    simp only [claimable, hsize, decide_true, Bool.true_and]
    exact (Bool.not_eq_false' _).mp howned

def pendingOf (h : Home δ) (profile catalog : ByteArray) : Receipt δ :=
  (h.theReceipt.insert .profile (noted K (h.slot .profile) profile)).insert .catalog (noted K (h.slot .catalog) catalog)

omit [DecidableEq δ] in
theorem owned_insert (r : Receipt δ) (name name' : GenFile) (hashes : List δ) :
    (r.insert name hashes).owned name' = if name' = name then hashes else r.owned name' := by
  unfold Receipt.owned Receipt.insert
  by_cases h : name' = name
  · subst h
    simp
  · simp [h]

theorem prepare_safe (hI : I w) : SafeOk effect I (fun r w' => w' = w ∧ publishable K w.home profile catalog = true ∧
      r = pendingOf K w.home profile catalog) (prepare K profile catalog) w := by
  refine (refuse_safe hI).bind ?_
  rintro - w1 - ⟨rfl, hsize⟩
  refine (createHome_safe hI).bind ?_
  rintro - w2 - rfl
  refine (lock_safe hI).bind ?_
  rintro - w3 - rfl
  refine (receipt_safe hI).bind ?_
  rintro r w4 - ⟨rfl, rfl, hvalid⟩
  refine (claim_safe K hI).bind ?_
  rintro r w5 - ⟨rfl, hprofile, rfl⟩
  refine (claim_safe K hI).mono ?_
  rintro r w6 - ⟨rfl, hcatalog, rfl⟩
  refine ⟨rfl, ?_, rfl⟩
  rw [owned_insert, if_neg (by decide)] at hcatalog
  simp only [Bool.or_eq_false_iff, decide_eq_false_iff_not, Nat.not_lt] at hsize
  simp only [publishable, hsize.1, hsize.2, hvalid, hprofile, hcatalog, decide_true, Bool.and_self]

theorem release_safe {r : Receipt δ} (hI : I w) :
    SafeOk effect I (fun _ w' => w' = w ∧ ∀ old, w.home.slot name = .file old → stillOwned K name old (r.owned name) = true)
      (release K r name) w := by
  refine (read_safe hI).bind ?_
  rintro found w' - ⟨rfl, hfound⟩
  cases found with
  | none =>
    have hslot : w'.home.slot name = .absent := hfound
    exact safeOk_pure hI ⟨rfl, fun old hold => nomatch hslot.symm.trans hold⟩
  | some bytes =>
    refine (refuse_safe hI).bind ?_
    rintro - w1 - ⟨rfl, howned⟩
    refine safeOk_pure hI ⟨rfl, fun old hold => ?_⟩
    obtain rfl : bytes = old := Slot.file.inj (hfound.1.symm.trans hold)
    exact (Bool.not_eq_false' _).mp howned

theorem inspect_safe (hI : I w) : SafeOk effect I (fun _ w' => w' = w ∧ ∀ name old, w.home.slot name = .file old →
    stillOwned K name old (w.home.theReceipt.owned name) = true) (inspect K) w := by
  refine (lock_safe hI).bind ?_
  rintro - w1 - rfl
  refine (receipt_safe hI).bind ?_
  rintro _ w2 - ⟨rfl, rfl, -⟩
  refine (release_safe K hI).bind ?_
  rintro - w3 - ⟨rfl, hprofile⟩
  refine (release_safe K hI).bind ?_
  rintro - w4 - ⟨rfl, hcatalog⟩
  refine safeOk_pure hI ⟨rfl, fun name => ?_⟩
  cases name with
  | profile => exact hprofile
  | catalog => exact hcatalog

end

/-! ## What is overwritten and deleted -/

section
variable {δ : Type} {w : World δ} {K : Kit δ}

theorem Inv.setReceipt {r : Receipt δ} (h : Inv K w)
    (hr : ∀ name, ∀ hash ∈ r.owned name, ∃ x, hash = K.sha256 x ∧ Ours K name x (w.payloads name)) :
    Inv K (w.setReceipt r) :=
  ⟨h.destroyed, fun _ heq => Option.some.inj heq ▸ hr⟩

theorem Inv.replace (h : Inv K w) (name : GenFile) (slot : Slot)
    (hours : ∀ old, w.home.slot name = .file old → Ours K name old (w.payloads name)) : Inv K (w.replace name slot) := by
  refine ⟨fun d hd => ?_, h.receipt⟩
  unfold World.replace at hd
  split at hd
  · next old hslot =>
    rcases List.mem_cons.mp hd with rfl | hd
    · exact hours old hslot
    · exact h.destroyed d hd
  · exact h.destroyed d hd

theorem Inv.theReceipt (h : Inv K w) {hash : δ} (hmem : hash ∈ w.home.theReceipt.owned name) :
    ∃ x, hash = K.sha256 x ∧ Ours K name x (w.payloads name) := by
  cases hr : w.home.receipt with
  | none =>
    rw [Home.theReceipt, hr] at hmem
    cases hmem
  | some r =>
    rw [Home.theReceipt, hr] at hmem
    exact h.receipt r hr name hash hmem

variable [DecidableEq δ] (hsha : Function.Injective K.sha256)
include hsha

theorem ours_of_claimable (h : Inv K w) {current : ByteArray} (hslot : w.home.slot name = .file current)
    (hclaim : claimable K (w.home.slot name) name bytes (w.home.theReceipt.owned name) = true)
    (hbytes : bytes ∈ w.payloads name) : Ours K name current (w.payloads name) := by
  rw [hslot] at hclaim
  simp only [claimable, Bool.and_eq_true, Bool.or_eq_true, decide_eq_true_eq] at hclaim
  rcases hclaim.2 with rfl | howned
  · exact .inl hbytes
  · exact ours_of_owned hsha (fun hash hmem => h.theReceipt hmem) howned

theorem noted_ours (h : Inv K w) {hash : δ}
    (hclaim : claimable K (w.home.slot name) name bytes (w.home.theReceipt.owned name) = true)
    (hbytes : bytes ∈ w.payloads name) (hmem : hash ∈ noted K (w.home.slot name) bytes) :
    ∃ x, hash = K.sha256 x ∧ Ours K name x (w.payloads name) := by
  have hnew : hash = K.sha256 bytes → ∃ x, hash = K.sha256 x ∧ Ours K name x (w.payloads name) :=
    fun heq => ⟨bytes, heq, .inl hbytes⟩
  cases hslot : w.home.slot name with
  | file current =>
    have hcurrent := ours_of_claimable hsha h hslot hclaim hbytes
    rw [hslot] at hmem
    simp only [noted] at hmem
    split at hmem
    · rcases List.mem_cons.mp hmem with heq | hmem
      · exact hnew heq
      · exact ⟨current, List.mem_singleton.mp hmem, hcurrent⟩
    · exact hnew (List.mem_singleton.mp hmem)
  | _ =>
    rw [hslot] at hmem
    exact hnew (List.mem_singleton.mp hmem)

theorem publish_safe (h : Inv K w) (hpayloads : publishable K w.home profile catalog = true →
      profile ∈ w.payloads .profile ∧ catalog ∈ w.payloads .catalog) :
    SafeOk effect (Inv K) (fun _ _ => True) (publish K profile catalog) w := by
  refine (prepare_safe K h).bind ?_
  rintro r w' - ⟨rfl, hpublishable, rfl⟩
  obtain ⟨hprofile, hcatalog⟩ := hpayloads hpublishable
  simp only [publishable, Bool.and_eq_true] at hpublishable
  obtain ⟨⟨⟨⟨-, -⟩, -⟩, hclaim1⟩, hclaim2⟩ := hpublishable
  have hpending : Inv K (w'.setReceipt (pendingOf K w'.home profile catalog)) := by
    refine h.setReceipt fun name hash hmem => ?_
    rw [pendingOf, owned_insert, owned_insert] at hmem
    cases name with
    | catalog => exact noted_ours hsha h hclaim2 hcatalog hmem
    | profile => exact noted_ours hsha h hclaim1 hprofile hmem
  refine (atomicReceipt_safe h hpending).bind ?_
  rintro - w1 - rfl
  have hinstalled := hpending.replace .profile (.file profile)
    fun old hslot => ours_of_claimable hsha h hslot hclaim1 hprofile
  refine (atomic_safe hpending hinstalled).bind ?_
  rintro - w2 - rfl
  have hboth := hinstalled.replace .catalog (.file catalog)
    fun old hslot => ours_of_claimable hsha h hslot hclaim2 hcatalog
  refine (atomic_safe hinstalled hboth).bind ?_
  rintro - w3 - rfl
  refine (atomicReceipt_safe hboth (hboth.setReceipt fun name hash hmem => ?_)).mono fun _ _ _ _ => trivial
  rw [receiptOf, owned_insert, owned_insert] at hmem
  cases name with
  | catalog => exact ⟨catalog, List.mem_singleton.mp hmem, .inl hcatalog⟩
  | profile => exact ⟨profile, List.mem_singleton.mp hmem, .inl hprofile⟩

omit hsha [DecidableEq δ] in
theorem unlinkIf_safe {present : Bool} (h : Inv K w)
    (hours : ∀ old, w.home.slot name = .file old → Ours K name old (w.payloads name)) :
    SafeOk effect (Inv K) (fun _ w' => w' = w ∨ w' = w.replace name .absent) (unlinkIf present name) w := by
  cases present with
  | false => exact safeOk_pure h (.inl rfl)
  | true => exact (unlink_safe h (h.replace name .absent hours)).mono fun _ _ _ heq => .inr heq

theorem remove_safe (h : Inv K w) : SafeOk effect (Inv K) (fun _ _ => True) (remove K) w := by
  refine (inspect_safe K h).bind ?_
  rintro present w1 - ⟨rfl, howned⟩
  have hours : ∀ name old, w1.home.slot name = .file old → Ours K name old (w1.payloads name) :=
    fun name old hold => ours_of_owned hsha (fun hash hmem => h.theReceipt hmem) (howned name old hold)
  refine (unlinkIf_safe h (hours .profile)).bind fun _ w2 h2 hw2 => ?_
  have hours2 : ∀ old, w2.home.slot .catalog = .file old → Ours K .catalog old (w2.payloads .catalog) := by
    rcases hw2 with rfl | rfl
    · exact hours .catalog
    · exact hours .catalog
  refine (unlinkIf_safe h2 hours2).bind fun _ w3 h3 _ => ?_
  exact (atomicReceipt_safe h3 (h3.setReceipt fun name hash hmem => absurd hmem List.not_mem_nil)).mono
    fun _ _ _ _ => trivial

omit hsha in
theorem Inv.called (h : Inv K w) : Inv K (w.called K profile catalog) ∧
    (publishable K (w.called K profile catalog).home profile catalog = true →
      profile ∈ (w.called K profile catalog).payloads .profile ∧ catalog ∈ (w.called K profile catalog).payloads .catalog) := by
  unfold World.called
  by_cases hp : publishable K w.home profile catalog = true
  · rw [if_pos hp]
    refine ⟨⟨h.destroyed, fun r hr name hash hmem => ?_⟩, fun _ => ⟨List.mem_cons_self, List.mem_cons_self⟩⟩
    obtain ⟨x, hx, hours⟩ := h.receipt r hr name hash hmem
    exact ⟨x, hx, hours.imp (List.mem_cons_of_mem _) fun h => ⟨h.1, List.mem_cons_of_mem _ h.2⟩⟩
  · rw [if_neg hp]
    exact ⟨h, fun hpub => absurd hpub hp⟩

theorem History.inv (h : History K w) : Inv K w := by
  induction h with
  | start => exact ⟨(fun d hd => nomatch hd), (fun r hr => nomatch hr)⟩
  | publish _ hends ih => exact Safe.inv_ends (publish_safe hsha ih.called.1 ih.called.2) hends
  | publishCut _ hcut ih => exact Safe.cut (publish_safe hsha ih.called.1 ih.called.2) hcut
  | remove _ hends ih => exact Safe.inv_ends (remove_safe hsha ih) hends
  | removeCut _ hcut ih => exact Safe.cut (remove_safe hsha ih) hcut
  | edit _ ih => exact ⟨ih.destroyed, ih.receipt⟩

end

/-! ## Runs in which nothing fails -/

section
variable {δ α : Type} {w : World δ}

def succeeds : (op : HomeOp δ) → World δ → op.Reply × World δ
  | .readReceipt, w => (.ok w.home.receipt, w)
  | .read name, w => (.ok (w.home.slot name), w)
  | .rename name bytes, w => (.ok (), w.replace name (.file bytes))
  | .renameReceipt receipt, w => (.ok (), w.setReceipt receipt)
  | .unlink name, w => (.ok (), w.replace name .absent)
  | .createHome, w => (.ok (), w)
  | .lock, w => (.ok (), w)
  | .stage, w => (.ok (), w)
  | .syncHome, w => (.ok (), w)

theorem succeeds_effect (op : HomeOp δ) (w : World δ) : effect op w (succeeds op w).1 (succeeds op w).2 := by
  cases op with
  | readReceipt => exact ⟨rfl, fun _ h => (Except.ok.inj h).symm⟩
  | read name => exact ⟨rfl, fun _ h => (Except.ok.inj h).symm⟩
  | rename name bytes => exact .inl rfl
  | renameReceipt receipt => exact .inl rfl
  | unlink name => exact .inl rfl
  | _ => rfl

def runs (x : Gen δ α) (w : World δ) : Except GenError α × World δ := run succeeds x w

def diesAfter (x : Gen δ α) (n : Nat) (w : World δ) : World δ := runFor succeeds n x w

abbrev Reads (w : World δ) (n : Nat) (x : Gen δ α) (r : Except GenError α) : Prop :=
  Leads succeeds w n x (.ret r)

variable {f : α → Gen δ β} {pending : Receipt δ}

theorem Reads.then {m : Nat} {x : Gen δ α} {a : α} {q : Gen δ β} (hx : Reads w n x (.ok a))
    (hf : Leads succeeds w m (f a) q) : Leads succeeds w (m + n) (x >>= f : Gen δ β) q :=
  (Leads.bind hx).trans hf

theorem Reads.fails {x : Gen δ α} (hx : Reads w n x (.error e)) : Reads w n (x >>= f : Gen δ β) (.error e) :=
  Leads.bind hx

theorem createHome_reads : Reads w 1 createHome (.ok ()) := .op rfl .refl

theorem lock_reads : Reads w 1 lock (.ok ()) := .op rfl .refl

def readResult : Slot → Except GenError (Option ByteArray)
  | .absent => .ok none
  | .link => .error .system
  | .foreign => .error .unsafeFile
  | .file bytes => if bytes.size > maxBytes then .error .unsafeFile else .ok (some bytes)

theorem refuse_fails (e : GenError) (h : b = true) : Reads w 0 (refuse b e) (.error e) := by
  rw [h]
  exact .refl

theorem refuse_passes (e : GenError) (h : b = false) : Reads w 0 (refuse b e) (.ok ()) := by
  rw [h]
  exact .refl

theorem readSlot_reads (name : GenFile) : Reads w 1 (readSlot name) (.ok (w.home.slot name)) := .op rfl .refl

theorem read_reads (name : GenFile) : Reads w 1 (read name) (readResult (w.home.slot name)) := by
  refine (readSlot_reads name).then (m := 0) ?_
  cases w.home.slot name with
  | absent => exact .refl
  | link => exact .refl
  | foreign => exact .refl
  | file bytes =>
    by_cases hsize : bytes.size > maxBytes
    · simp only [readResult, if_pos hsize]
      exact (refuse_fails _ (decide_eq_true hsize)).fails
    · simp only [readResult, if_neg hsize]
      exact (refuse_passes _ (decide_eq_false hsize)).then (m := 0) .refl

theorem receipt_reads : Reads w 1 receipt
    (if w.home.theReceipt.valid then .ok w.home.theReceipt else .error .invalidReceipt) := by
  have hread : Reads w 1 readReceipt (.ok w.home.receipt) := .op rfl .refl
  refine hread.then (m := 0) ?_
  cases hvalid : w.home.theReceipt.valid with
  | true => exact (refuse_passes _ (congrArg not hvalid)).then (m := 0) .refl
  | false => exact (refuse_fails _ (congrArg not hvalid)).fails

variable [DecidableEq δ] (K : Kit δ)

theorem claim_reads (h : claimable K (w.home.slot name) name bytes (pending.owned name) = true) :
    Reads w 1 (claim K pending name bytes) (.ok (pending.insert name (noted K (w.home.slot name) bytes))) := by
  have hread := read_reads (w := w) name
  cases hslot : w.home.slot name with
  | absent =>
    rw [hslot] at hread
    exact hread.then (m := 0) .refl
  | link =>
    rw [hslot] at h
    cases h
  | foreign =>
    rw [hslot] at h
    cases h
  | file current =>
    rw [hslot] at h hread
    simp only [claimable, Bool.and_eq_true, decide_eq_true_eq] at h
    rw [readResult, if_neg (Nat.not_lt.mpr h.1)] at hread
    exact hread.then (m := 0) ((refuse_passes _ (congrArg not h.2)).then (m := 0) .refl)

omit [DecidableEq δ] in
theorem read_fails {f : Option ByteArray → Gen δ α} (habsent : w.home.slot name ≠ .absent)
    (h : ∀ bytes, w.home.slot name = .file bytes → bytes.size ≤ maxBytes → ∃ e, Reads w 0 (f (some bytes)) (.error e)) :
    ∃ e, Reads w 1 (read name >>= f) (.error e) := by
  have hread := read_reads (w := w) name
  cases hslot : w.home.slot name with
  | absent => exact absurd hslot habsent
  | link =>
    rw [hslot] at hread
    exact ⟨_, hread.fails⟩
  | foreign =>
    rw [hslot] at hread
    exact ⟨_, hread.fails⟩
  | file bytes =>
    rw [hslot] at hread
    by_cases hsize : bytes.size > maxBytes
    · rw [readResult, if_pos hsize] at hread
      exact ⟨_, hread.fails⟩
    · rw [readResult, if_neg hsize] at hread
      obtain ⟨e, he⟩ := h bytes hslot (Nat.not_lt.mp hsize)
      exact ⟨e, hread.then (m := 0) he⟩

theorem claim_fails (h : claimable K (w.home.slot name) name bytes (pending.owned name) = false) :
    ∃ e, Reads w 1 (claim K pending name bytes) (.error e) := by
  refine read_fails (fun hslot => ?_) fun current hslot hsize => ?_
  · rw [hslot] at h
    cases h
  · rw [hslot] at h
    simp only [claimable, decide_eq_true hsize, Bool.true_and] at h
    exact ⟨_, (refuse_fails _ (congrArg not h)).fails⟩

theorem prepare_reads (h : publishable K w.home profile catalog = true) :
    Reads w 5 (prepare K profile catalog) (.ok (pendingOf K w.home profile catalog)) := by
  simp only [publishable, Bool.and_eq_true, decide_eq_true_eq] at h
  obtain ⟨⟨⟨⟨hprofile, hcatalog⟩, hvalid⟩, hclaim1⟩, hclaim2⟩ := h
  have hsize : (decide (profile.size > maxBytes) || decide (catalog.size > maxBytes)) = false := by
    simp [hprofile, hcatalog]
  have hreceipt := receipt_reads (w := w)
  rw [hvalid, if_pos rfl] at hreceipt
  refine (refuse_passes _ hsize).then (m := 5) (createHome_reads.then (m := 4) (lock_reads.then (m := 3)
    (hreceipt.then (m := 2) ((claim_reads K hclaim1).then (m := 1) (claim_reads K ?_)))))
  rw [owned_insert, if_neg (by decide)]
  exact hclaim2

theorem prepare_fails (h : publishable K w.home profile catalog = false) :
    ∃ n e, Reads w n (prepare K profile catalog) (.error e) := by
  cases hsize : (decide (profile.size > maxBytes) || decide (catalog.size > maxBytes)) with
  | true => exact ⟨_, _, (refuse_fails _ hsize).fails⟩
  | false =>
    have hreceipt := receipt_reads (w := w)
    cases hvalid : w.home.theReceipt.valid with
    | false =>
      rw [hvalid, if_neg Bool.false_ne_true] at hreceipt
      exact ⟨_, _, (refuse_passes _ hsize).then (createHome_reads.then (lock_reads.then hreceipt.fails))⟩
    | true =>
      rw [hvalid, if_pos rfl] at hreceipt
      cases hclaim : claimable K (w.home.slot .profile) .profile profile (w.home.theReceipt.owned .profile) with
      | false =>
        obtain ⟨e, hfails⟩ := claim_fails K hclaim
        exact ⟨_, e, (refuse_passes _ hsize).then (createHome_reads.then (lock_reads.then (hreceipt.then hfails.fails)))⟩
      | true =>
        have hlast : claimable K (w.home.slot .catalog) .catalog catalog
            ((w.home.theReceipt.insert .profile (noted K (w.home.slot .profile) profile)).owned .catalog) = false := by
          rw [owned_insert, if_neg (by decide)]
          simp only [Bool.or_eq_false_iff, decide_eq_false_iff_not, Nat.not_lt] at hsize
          simpa only [publishable, hsize.1, hsize.2, hvalid, hclaim, decide_true, Bool.true_and] using h
        obtain ⟨e, hfails⟩ := claim_fails K hlast
        exact ⟨_, e, (refuse_passes _ hsize).then (createHome_reads.then (lock_reads.then (hreceipt.then
          ((claim_reads K hclaim).then hfails))))⟩

def World.published (w : World δ) (profile catalog : ByteArray) : World δ :=
  (((w.setReceipt (pendingOf K w.home profile catalog)).replace .profile (.file profile)).replace .catalog
    (.file catalog)).setReceipt (receiptOf K profile catalog)

theorem publish_runs (h : publishable K w.home profile catalog = true) :
    runs (publish K profile catalog) w = (.ok (), w.published K profile catalog) :=
  ((prepare_reads K h).then .refl).run

end

/-! ## Contents that are lost -/

section
variable {δ : Type} [DecidableEq δ] {K : Kit δ} {w : World δ}

theorem overwritten_ours (hsha : Function.Injective K.sha256) (h : History K w) :
    ∀ d ∈ w.destroyed, Ours K d.1 d.2.1 d.2.2 ∧ ((∀ payload ∈ d.2.2, withoutForeignAssignments K payload = payload) →
        (if d.1 = .profile then withoutForeignAssignments K d.2.1 else d.2.1) ∈ d.2.2) := by
  intro d hd
  have hours := (h.inv hsha).destroyed d hd
  refine ⟨hours, fun hmanaged => ?_⟩
  rcases hours with hmem | ⟨hname, hmem⟩
  · split
    · exact (hmanaged _ hmem).symm ▸ hmem
    · exact hmem
  · rw [if_pos hname]
    exact hmem

theorem history_published (h : History K w) (hp : publishable K w.home profile catalog = true) :
    History K ((w.called K profile catalog).published K profile catalog) := by
  have hhome : (w.called K profile catalog).home = w.home := by
    rw [World.called, if_pos hp]
  have hruns := publish_runs K (w := w.called K profile catalog) (hhome.symm ▸ hp)
  have hends := ends_run succeeds_effect (publish K profile catalog) (w.called K profile catalog)
  rw [show run succeeds (publish K profile catalog) _ = _ from hruns] at hends
  exact .publish h hends

end

def exampleKit : Kit ByteArray := ⟨fun c => c = ' ' || c = '\n', id⟩

def emptyHome : World ByteArray := ⟨⟨fun _ => .absent, none⟩, fun _ => [], []⟩

def published (w : World ByteArray) (profile : String) : World ByteArray :=
  (w.called exampleKit profile.toUTF8 "[]".toUTF8).published exampleKit profile.toUTF8 "[]".toUTF8

theorem published_twice (first second : String)
    (h : publishable exampleKit emptyHome.home first.toUTF8 "[]".toUTF8 = true ∧
      publishable exampleKit (published emptyHome first).home second.toUTF8 "[]".toUTF8 = true) :
    History exampleKit (published (published emptyHome first) second) :=
  history_published (history_published .start h.1) h.2

theorem managed_profile_overwritten : (.profile, "model=1\n".toUTF8, ["model=2\n".toUTF8, "model=1\n".toUTF8]) ∈
      (published (published emptyHome "model=1\n") "model=2\n").destroyed ∧
    Ours exampleKit .profile "model=1\n".toUTF8 ["model=2\n".toUTF8, "model=1\n".toUTF8] := by
  have hmem : (.profile, "model=1\n".toUTF8, ["model=2\n".toUTF8, "model=1\n".toUTF8]) ∈
      (published (published emptyHome "model=1\n") "model=2\n").destroyed := .tail _ (.head _)
  exact ⟨hmem, (overwritten_ours (fun _ _ h => h) (published_twice _ _ (by decide +kernel)) _ hmem).1⟩

/-- A payload with a foreign line is overwritten: without its foreign lines it is no payload. -/
theorem foreign_payload_overwritten :
    ∃ w, History exampleKit w ∧ ∃ d ∈ w.destroyed, d.1 = .profile ∧ withoutForeignAssignments exampleKit d.2.1 ∉ d.2.2 := by
  have hmem : (.profile, "x=1\n".toUTF8, ["model=2\n".toUTF8, "x=1\n".toUTF8]) ∈
      (published (published emptyHome "x=1\n") "model=2\n").destroyed := .tail _ (.head _)
  refine ⟨_, published_twice "x=1\n" "model=2\n" (by decide +kernel), _, hmem, rfl, ?_⟩
  have hkept : keptText exampleKit "x=1\n" = "" := by decide +kernel
  simp only [withoutForeignAssignments, fromUTF8?_toUTF8, hkept, List.mem_cons, List.not_mem_nil, or_false, not_or]
  exact ⟨fun h => absurd (String.toByteArray_inj.mp h) (by decide), fun h => absurd (String.toByteArray_inj.mp h) (by decide)⟩

end Sparkplane.Generated
