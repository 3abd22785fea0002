import Sparkplane.ImageHistory
import Mathlib.Algebra.Order.BigOperators.Group.List
import Mathlib.Algebra.Order.Group.Nat
import Mathlib.Data.List.Forall2

/-!
# What image projection changes

Every pass of `prune_items` replaces single images (`Step`), in items before the
last acknowledged one. A history that a pass has gone over is settled: no later
pass over it, or over a beginning of it, changes anything.
-/

namespace Sparkplane.ImageHistory

open Gateway (Crates)

/-! ## Chains of steps -/

inductive Chain {α : Type} (R : α → α → Nat → Prop) : α → α → List Nat → Prop
  | refl (a : α) : Chain R a a []
  | step {a b c : α} {n : Nat} {ns : List Nat} : R a b n → Chain R b c ns → Chain R a c (n :: ns)

namespace Chain

variable {α β : Type} {R : α → α → Nat → Prop} {S : β → β → Nat → Prop} {a b c : α} {ns ms : List Nat}

theorem trans (h : Chain R a b ns) (h' : Chain R b c ms) : Chain R a c (ns ++ ms) := by
  induction h with
  | refl a => exact h'
  | step hstep _ ih => exact .step hstep (ih h')

theorem map (f : α → β) (hf : ∀ a b n, R a b n → S (f a) (f b) n) (h : Chain R a b ns) : Chain S (f a) (f b) ns := by
  induction h with
  | refl a => exact .refl _
  | step hstep _ ih => exact .step (hf _ _ _ hstep) ih

theorem eq_of_nil (h : Chain R a b []) : b = a := by
  cases h
  rfl

end Chain

/-! ## One image is replaced -/

section
variable (X : Crates) (protocol : Protocol)

/-- In a value, one evictable image part, in a place that the traversal visits, is
replaced by a text part that carries the hash of its payload. -/
inductive Step : Value → Value → Nat → Prop
  | omits {part : Value} {id : String} (original : Option String) : protocol.image part = true →
      evictable protocol part = true → imageId X protocol part = some id →
      Step part (omitted X protocol id original) (payloadLen protocol part)
  | array {v v' : Value} {n : Nat} (pre post : List Value) : Step v v' n →
      Step (.array (pre ++ v :: post)) (.array (pre ++ v' :: post)) n
  | field {fields : Fields} {v v' : Value} {n : Nat} (key : String) : (key = "content" ∨ key = "output") →
      protocol.image (.object fields) = false → fields.get key = some v → Step v v' n →
      Step (.object fields) (.object (fields.put key v')) n

/-- In a history, one image of a user item or of a tool's result is replaced, and the
item is before the last acknowledged one. -/
inductive Omits : List Value → List Value → Nat → Prop
  | mk {item item' : Value} {n : Nat} (pre post : List Value) : prunable protocol item = true →
      post.any (acknowledged protocol) = true → Step X protocol item item' n →
      Omits (pre ++ item :: post) (pre ++ item' :: post) n

end

section
variable {X : Crates} {protocol : Protocol} {maxCount : Nat} {archive : Option Archive} {fields : Fields}
variable {key : String} {part v v' : Value}

theorem image_put (hkey : key = "content" ∨ key = "output") (v : Value) :
    protocol.image (.object (fields.put key v)) = protocol.image (.object fields) := by
  rcases hkey with rfl | rfl <;> simp [Protocol.image]

theorem image_putSome (hkey : key = "content" ∨ key = "output") (v : Option Value) :
    protocol.image (.object (fields.putSome key v)) = protocol.image (.object fields) := by
  cases v with
  | none => rfl
  | some v => exact image_put hkey v

/-! ## The parts that are visited -/

theorem partsField_eq (key : String) (fields : Fields) :
    partsField protocol key fields = ((fields.get key).map (parts protocol)).getD [] := by
  induction fields with
  | nil => simp [partsField]
  | cons f fields ih =>
    by_cases h : f.1 = key
    · simp [partsField, Fields.get_cons, h]
    · simp [partsField, Fields.get_cons, h, Ne.symm h, ih]

theorem partsEach_eq (items : List Value) : partsEach protocol items = images protocol items := by
  induction items with
  | nil => simp [partsEach, images]
  | cons item items ih => simp [partsEach, images, ih]

theorem parts_array (items : List Value) : parts protocol (.array items) = images protocol items := by
  rw [parts, partsEach_eq]

theorem parts_object (h : protocol.image (.object fields) = false) :
    parts protocol (.object fields) = ((fields.get "content").map (parts protocol)).getD [] ++
      ((fields.get "output").map (parts protocol)).getD [] := by
  simp [parts, h, partsField_eq]

theorem object_of_image (h : protocol.image part = true) : ∃ fields, part = .object fields := by
  cases part with
  | object fields => exact ⟨fields, rfl⟩
  | _ => simp [Protocol.image, Value.fieldIs, Value.field, Value.get, Value.asStr] at h

theorem parts_image (h : protocol.image part = true) : parts protocol part = [part] := by
  obtain ⟨fields, rfl⟩ := object_of_image h
  simp [parts, h]

@[simp] theorem parts_omitted (id : String) (original : Option String) :
    parts protocol (omitted X protocol id original) = [] := by
  cases protocol <;> simp [omitted, Protocol.text, parts, partsField, Protocol.image, Value.fieldIs, Value.field,
    Value.get, Fields.get_cons, Value.asStr]

@[simp] theorem images_append (items items' : List Value) :
    images protocol (items ++ items') = images protocol items ++ images protocol items' := by
  simp [images]

@[simp] theorem images_cons (item : Value) (items : List Value) :
    images protocol (item :: items) = parts protocol item ++ images protocol items := by
  simp [images]

theorem Step.parts {n : Nat} (h : Step X protocol v v' n) : ∃ l part r,
    parts protocol v = l ++ part :: r ∧ parts protocol v' = l ++ r ∧ payloadLen protocol part = n := by
  induction h with
  | omits original himage _ _ => exact ⟨[], _, [], parts_image himage, by simp, rfl⟩
  | array pre post _ ih =>
    obtain ⟨l, part, r, hv, hv', hn⟩ := ih
    exact ⟨images protocol pre ++ l, part, r ++ images protocol post, by simp [parts_array, hv],
      by simp [parts_array, hv'], hn⟩
  | @field fields v v' _ key hkey himage hget _ ih =>
    obtain ⟨l, part, r, hv, hv', hn⟩ := ih
    have himage' := (image_put hkey v').trans himage
    have hput := Fields.get_put_self hget v'
    rcases hkey with rfl | rfl
    · refine ⟨l, part, r ++ ((fields.get "output").map (ImageHistory.parts protocol)).getD [], ?_, ?_, hn⟩
      · simp [parts_object himage, hget, hv]
      · simp [parts_object himage', hput, hv']
    · refine ⟨((fields.get "content").map (ImageHistory.parts protocol)).getD [] ++ l, part, r, ?_, ?_, hn⟩
      · simp [parts_object himage, hget, hv]
      · simp [parts_object himage', hput, hv']

theorem Step.cons {items items' : List Value} {n : Nat} (item : Value)
    (h : Step X protocol (.array items) (.array items') n) :
    Step X protocol (.array (item :: items)) (.array (item :: items')) n := by
  generalize hv : Value.array items = v at h
  generalize hv' : Value.array items' = v' at h
  cases h with
  | omits original himage _ _ =>
    obtain ⟨fields, rfl⟩ := object_of_image himage
    cases hv
  | array pre post h =>
    cases hv
    cases hv'
    exact .array (item :: pre) post h
  | field key _ _ _ _ => cases hv

theorem Chain.field {ns : List Nat} (hkey : key = "content" ∨ key = "output")
    (himage : protocol.image (.object fields) = false) (hget : fields.get key = some v)
    (h : Chain (Step X protocol) v v' ns) :
    Chain (Step X protocol) (.object fields) (.object (fields.put key v')) ns := by
  induction h generalizing fields with
  | refl v => rw [Fields.put_self hget]; exact .refl _
  | @step a b c n ns hstep _ ih =>
    have h := ih ((image_put hkey b).trans himage) (Fields.get_put_self hget b)
    rw [Fields.put_put] at h
    exact .step (.field key hkey himage hget hstep) h

end

/-! ## One sweep -/

def removable (protocol : Protocol) (part : Value) : Bool :=
  evictable protocol part && (imagePayload protocol part).isSome

def Sweep.Stop (s : Sweep) : Prop := s.remove = 0 ∧ s.payloadBytes ≤ requestBytes / 2

def Idle (protocol : Protocol) (s : Sweep) (ps : List Value) : Prop := s.Stop ∨ ∀ p ∈ ps, removable protocol p = false

/-- What a sweep over some parts does: the sizes are those of the parts it removes, and
it goes on to the last removable part unless enough is removed. -/
structure Swept (protocol : Protocol) (s s' : Sweep) (ps ps' : List Value) (sizes : List Nat) : Prop where
  remove : s'.remove = s.remove - sizes.length
  bytes : s'.payloadBytes = s.payloadBytes - sizes.sum
  stats : s'.stats = ⟨s.stats.evicted + sizes.length, s.stats.removedBytes + sizes.sum⟩
  idle : Idle protocol s ps → sizes = []
  done : Idle protocol s' ps'

section
variable {X : Crates} {protocol : Protocol} {s s' s'' : Sweep} {ps ps' qs qs' : List Value} {ns ms : List Nat}

theorem idle_append : Idle protocol s (ps ++ qs) ↔ Idle protocol s ps ∧ Idle protocol s qs := by
  by_cases h : s.Stop
  · simp [Idle, h]
  · simp [Idle, h, or_imp, forall_and]

namespace Swept

theorem stop_iff (h : Swept protocol s s' ps ps' []) : s'.Stop ↔ s.Stop := by
  simp [Sweep.Stop, h.remove, h.bytes]

theorem stop (h : Swept protocol s s' ps ps' ns) (hs : s.Stop) : s'.Stop := by
  cases h.idle (.inl hs)
  exact h.stop_iff.mpr hs

theorem none (h : ∀ p ∈ ps, removable protocol p = false) : Swept protocol s s ps ps [] :=
  ⟨by simp, by simp, by simp, fun _ => rfl, .inr h⟩

theorem append (h : Swept protocol s s' ps ps' ns) (h' : Swept protocol s' s'' qs qs' ms) :
    Swept protocol s s'' (ps ++ qs) (ps' ++ qs') (ns ++ ms) where
  remove := by simp [h'.remove, h.remove, Nat.sub_sub]
  bytes := by simp [h'.bytes, h.bytes, Nat.sub_sub]
  stats := by simp [h'.stats, h.stats, Nat.add_assoc]
  idle := by
    intro hidle
    obtain ⟨hp, hq⟩ := idle_append.mp hidle
    cases h.idle hp
    apply h'.idle
    simpa [Idle, h.stop_iff] using hq
  done := by
    refine idle_append.mpr ⟨?_, h'.done⟩
    rcases h.done with hstop | hnone
    · exact .inl (h'.stop hstop)
    · exact .inr hnone

end Swept

def Visits (X : Crates) (protocol : Protocol) (v : Value) (s : Sweep) (r : Value × Sweep) : Prop :=
  ∃ ns, Chain (Step X protocol) v r.1 ns ∧ Swept protocol s r.2 (parts protocol v) (parts protocol r.1) ns

theorem evictPart_visits {part : Value} (archive : Option Archive) (path : Option String)
    (himage : protocol.image part = true) (s : Sweep) :
    Visits X protocol part s (evictPart X protocol archive path part s) := by
  have hparts := parts_image himage
  unfold evictPart
  split
  · next h =>
    refine ⟨[], .refl _, by simp, by simp, by simp, fun _ => rfl, ?_⟩
    rcases h with hstop | hkept
    · exact .inl hstop
    · exact .inr (by simp [hparts, removable, hkept])
  · next h =>
    simp only [not_or, Bool.not_eq_false] at h
    cases hpayload : imagePayload protocol part with
    | none =>
      simp only [imageId, hpayload, Option.map_none]
      exact ⟨[], .refl _, .none (by simp [hparts, removable, hpayload])⟩
    | some payload =>
      have hid : imageId X protocol part = some (X.sha256 payload) := by simp [imageId, hpayload]
      simp only [hid]
      refine ⟨[payloadLen protocol part], .step (.omits _ himage h.2 hid) (.refl _), by simp, by simp, by simp, ?_, ?_⟩
      · rintro (hstop | hkept)
        · exact absurd hstop h.1
        · simp [hparts, removable, h.2, hpayload] at hkept
      · exact .inr (by simp)

section
variable {visit : Value → Sweep → Value × Sweep}
  (hvisit : ∀ part s, protocol.image part = true → Visits X protocol part s (visit part s))

theorem visitField_eq (key : String) (fields : Fields) (s : Sweep) : visitField protocol visit key fields s =
    ((fields.get key).map fun v => (visitParts protocol visit v s).1,
      ((fields.get key).map fun v => (visitParts protocol visit v s).2).getD s) := by
  induction fields with
  | nil => simp [visitField]
  | cons f fields ih =>
    by_cases h : f.1 = key
    · simp [visitField, Fields.get_cons, h, Prod.map]
    · simp [visitField, Fields.get_cons, h, Ne.symm h, ih]

theorem visitEach_visits {items : List Value}
    (h : ∀ v ∈ items, ∀ s, Visits X protocol v s (visitParts protocol visit v s)) (s : Sweep) :
    ∃ ns, Chain (fun l l' => Step X protocol (.array l) (.array l')) items (visitEach protocol visit items s).1 ns ∧
      Swept protocol s (visitEach protocol visit items s).2 (images protocol items)
        (images protocol (visitEach protocol visit items s).1) ns := by
  induction items generalizing s with
  | nil => exact ⟨[], .refl _, .none (by simp [images])⟩
  | cons item items ih =>
    obtain ⟨hitem, hitems⟩ := List.forall_mem_cons.mp h
    obtain ⟨ns, hchain, hswept⟩ := hitem s
    obtain ⟨ms, hchain', hswept'⟩ := ih hitems (visitParts protocol visit item s).2
    refine ⟨ns ++ ms, .trans (hchain.map (fun v => v :: items) ?_) (hchain'.map (_ :: ·) ?_), ?_⟩
    · exact fun _ _ _ h => .array [] items h
    · exact fun _ _ _ h => h.cons _
    · simpa [visitEach] using hswept.append hswept'

theorem visitField_visits {fields base : Fields} {key : String} (hkey : key = "content" ∨ key = "output")
    (himage : protocol.image (.object base) = false) (hbase : base.get key = fields.get key)
    (h : ∀ f ∈ fields, ∀ s, Visits X protocol f.2 s (visitParts protocol visit f.2 s)) (s : Sweep) :
    ∃ ns, Chain (Step X protocol) (.object base)
      (.object (base.putSome key (visitField protocol visit key fields s).1)) ns ∧
      Swept protocol s (visitField protocol visit key fields s).2 (((fields.get key).map (parts protocol)).getD [])
        (((visitField protocol visit key fields s).1.map (parts protocol)).getD []) ns := by
  rw [visitField_eq]
  cases hget : fields.get key with
  | none => exact ⟨[], .refl _, .none (by simp)⟩
  | some v =>
    obtain ⟨f, hf, rfl⟩ := Option.map_eq_some_iff.mp hget
    obtain ⟨ns, hchain, hswept⟩ := h f (List.mem_of_find?_eq_some hf) s
    exact ⟨ns, hchain.field hkey himage (hbase.trans hget), by simpa using hswept⟩

theorem visitObject_visits {fields : Fields} (himage : protocol.image (.object fields) = false)
    (h : ∀ f ∈ fields, ∀ s, Visits X protocol f.2 s (visitParts protocol visit f.2 s)) (s : Sweep) :
    Visits X protocol (.object fields) s (visitParts protocol visit (.object fields) s) := by
  obtain ⟨ns, hchain, hswept⟩ := visitField_visits (.inl rfl) himage rfl h s
  obtain ⟨content, hcontent⟩ : ∃ content, visitField protocol visit "content" fields s = content := ⟨_, rfl⟩
  rw [hcontent] at hchain hswept
  have himage' := (image_putSome (.inl rfl) content.1).trans himage
  obtain ⟨ms, hchain', hswept'⟩ := visitField_visits (.inr rfl) himage' (by simp) h content.2
  obtain ⟨output, houtput⟩ : ∃ output, visitField protocol visit "output" fields content.2 = output := ⟨_, rfl⟩
  rw [houtput] at hchain' hswept'
  have hresult : visitParts protocol visit (.object fields) s =
      (.object ((fields.putSome "content" content.1).putSome "output" output.1), output.2) := by
    simp only [visitParts, himage, Bool.false_eq_true, if_false, hcontent, houtput]
  rw [hresult]
  refine ⟨ns ++ ms, hchain.trans hchain', ?_⟩
  have hget : ((fields.putSome "content" content.1).putSome "output" output.1).get "content" = content.1 := by
    rw [Fields.get_putSome_of_ne _ _ (by decide), ← hcontent, visitField_eq, Fields.get_putSome_map]
  have hget' : ((fields.putSome "content" content.1).putSome "output" output.1).get "output" = output.1 := by
    have hfields : (fields.putSome "content" content.1).get "output" = fields.get "output" := by simp
    rw [← houtput, visitField_eq, ← hfields, Fields.get_putSome_map]
  rw [parts_object himage, parts_object ((image_putSome (.inr rfl) _).trans himage'), hget, hget']
  exact hswept.append hswept'

include hvisit in
theorem visitParts_visits (v : Value) : ∀ s, Visits X protocol v s (visitParts protocol visit v s) := by
  induction v using Value.induct with
  | null | bool | number | string => exact fun s => ⟨[], .refl _, .none (by simp [parts])⟩
  | array items ih =>
    intro s
    obtain ⟨ns, hchain, hswept⟩ := visitEach_visits ih s
    unfold visitParts
    exact ⟨ns, hchain.map Value.array fun _ _ _ h => h, by simpa [parts_array] using hswept⟩
  | object fields ih =>
    intro s
    by_cases himage : protocol.image (.object fields) = true
    · simpa [visitParts, himage] using hvisit _ s himage
    · exact visitObject_visits (by simpa using himage) ih s

end

end

/-! ## The items that are swept -/

section
variable {X : Crates} {protocol : Protocol} {archive : Option Archive} {s : Sweep} {item item' : Value}
  {items items' post : List Value} {n : Nat} {ns : List Nat}

theorem role_of_evictable {fields : Fields} (h : evictable protocol (.object fields) = true) :
    fields.get "role" = none := by
  apply Fields.get_of_notMem
  intro hrole
  cases protocol <;> simp only [evictable, Value.asObject, Bool.and_eq_true, List.all_eq_true] at h
  · exact absurd (h.1 _ hrole) (by decide)
  · exact absurd (h.1.1 _ hrole) (by decide)
  · exact absurd (h.1 _ hrole) (by decide)

theorem prunable_of_evictable (himage : protocol.image item = true) (h : evictable protocol item = true) :
    prunable protocol item = false := by
  obtain ⟨fields, rfl⟩ := object_of_image himage
  have hrole := Value.fieldIs_of_none (role_of_evictable h)
  cases protocol with
  | responses => simp [prunable, hrole, Value.fieldIs_of_ne himage]
  | anthropic | chat => simp [prunable, hrole]

theorem Step.meta (h : Step X protocol item item' n) (hprunable : prunable protocol item = true) :
    prunable protocol item' = true ∧ acknowledged protocol item' = acknowledged protocol item := by
  cases h with
  | omits original himage h _ => rw [prunable_of_evictable himage h] at hprunable; cases hprunable
  | array pre post _ => simp [prunable, Value.fieldIs, Value.field, Value.get, Value.asStr] at hprunable
  | field key hkey _ _ _ =>
    rcases hkey with rfl | rfl <;> simpa [prunable, acknowledged] using hprunable

theorem Chain.omits (pre : List Value) (h : Chain (Step X protocol) item item' ns) (hprunable : prunable protocol item = true)
    (hpost : post.any (acknowledged protocol) = true) :
    prunable protocol item' = true ∧ Chain (Omits X protocol) (pre ++ item :: post) (pre ++ item' :: post) ns := by
  induction h with
  | refl item => exact ⟨hprunable, .refl _⟩
  | step hstep _ ih =>
    obtain ⟨hprunable', hchain⟩ := ih (hstep.meta hprunable).1
    exact ⟨hprunable', .step (.mk pre post hprunable hpost hstep) hchain⟩

def openParts (protocol : Protocol) (items : List Value) : List Value := images protocol (items.filter (prunable protocol))

theorem sweepItems_swept (X : Crates) (archive : Option Archive) (items pre : List Value)
    (paths : List (String × String)) (s : Sweep) (hpost : post.any (acknowledged protocol) = true) :
    ∃ ns, Chain (Omits X protocol) (pre ++ items ++ post)
      (pre ++ (sweepItems X protocol archive paths items s).1 ++ post) ns ∧
      Swept protocol s (sweepItems X protocol archive paths items s).2 (openParts protocol items)
        (openParts protocol (sweepItems X protocol archive paths items s).1) ns := by
  induction items generalizing s paths pre with
  | nil => exact ⟨[], .refl _, .none (by simp [openParts, images])⟩
  | cons item items ih =>
    unfold sweepItems
    have hpost' : (items ++ post).any (acknowledged protocol) = true := by simp [hpost]
    by_cases hprunable : prunable protocol item = true
    · obtain ⟨ns, hchain, hswept⟩ := visitParts_visits (X := X) (fun part s h =>
        evictPart_visits archive (pathOf item (notePath X item paths)) h s) item s
      obtain ⟨hprunable', hchain⟩ := hchain.omits pre hprunable hpost'
      simp only [hprunable, if_true]
      generalize visitParts protocol _ item s = first at hchain hswept hprunable' ⊢
      obtain ⟨ms, hchain', hswept'⟩ := ih (pre ++ [first.1]) (notePath X item paths) first.2
      refine ⟨ns ++ ms, by simpa using hchain.trans (by simpa using hchain'), ?_⟩
      simpa [openParts, hprunable, hprunable'] using hswept.append hswept'
    · obtain ⟨ms, hchain', hswept'⟩ := ih (pre ++ [item]) (notePath X item paths) s
      simp only [hprunable]
      exact ⟨ms, by simpa using hchain', by simpa [openParts, hprunable] using hswept'⟩

/-! ## The last acknowledged item -/

theorem seen_append (pre : List Value) (item : Value) (h : post.any (acknowledged protocol) = true) :
    seen protocol (pre ++ item :: post) = pre.length + (seen protocol post + 1) := by
  induction pre with
  | nil => simp [seen, h]
  | cons x pre ih =>
    have hany : (pre ++ item :: post).any (acknowledged protocol) = true := by
      simp only [List.any_append, List.any_cons, h, Bool.or_true]
    rw [List.cons_append, seen, if_pos hany, ih, List.length_cons]
    omega

theorem any_drop_seen (h : 0 < seen protocol items) :
    (items.drop (seen protocol items)).any (acknowledged protocol) = true := by
  induction items with
  | nil => simp [seen] at h
  | cons item items ih =>
    by_cases hany : items.any (acknowledged protocol) = true
    · rw [seen, if_pos hany, List.drop_succ_cons]
      by_cases hpos : 0 < seen protocol items
      · exact ih hpos
      · rw [Nat.eq_zero_of_not_pos hpos]
        simpa using hany
    · simp [seen, hany] at h

theorem Omits.images (h : Omits X protocol items items' n) : ∃ l part r,
    images protocol items = l ++ part :: r ∧ images protocol items' = l ++ r ∧ payloadLen protocol part = n := by
  obtain ⟨pre, post, _, _, hstep⟩ := h
  obtain ⟨l, part, r, hv, hv', hn⟩ := hstep.parts
  exact ⟨ImageHistory.images protocol pre ++ l, part, r ++ ImageHistory.images protocol post, by simp [hv],
    by simp [hv'], hn⟩

theorem Omits.seen (h : Omits X protocol items items' n) : seen protocol items' = seen protocol items ∧
    items'.drop (seen protocol items) = items.drop (seen protocol items) := by
  obtain ⟨pre, post, _, hpost, _⟩ := h
  rw [seen_append pre _ hpost, seen_append pre _ hpost]
  simp [List.drop_append]

theorem Omits.append (h : Omits X protocol items items' n) (more : List Value) :
    Omits X protocol (items ++ more) (items' ++ more) n := by
  obtain ⟨pre, post, hprunable, hpost, hstep⟩ := h
  simpa using Omits.mk pre (post ++ more) hprunable (by simp [hpost]) hstep

def Trims (protocol : Protocol) (item item' : Value) : Prop :=
  (parts protocol item').Sublist (parts protocol item) ∧ prunable protocol item' = prunable protocol item ∧
    acknowledged protocol item' = acknowledged protocol item

theorem trims_refl (items : List Value) : List.Forall₂ (Trims protocol) items items :=
  List.forall₂_same.mpr fun _ _ => ⟨.refl _, rfl, rfl⟩

theorem trims_trans {items'' : List Value} (h : List.Forall₂ (Trims protocol) items items')
    (h' : List.Forall₂ (Trims protocol) items' items'') : List.Forall₂ (Trims protocol) items items'' := by
  induction h generalizing items'' with
  | nil => exact h'
  | cons h _ ih =>
    cases h' with
    | cons h' hs => exact .cons ⟨h'.1.trans h.1, h'.2.1.trans h.2.1, h'.2.2.trans h.2.2⟩ (ih hs)

theorem Omits.trims (h : Omits X protocol items items' n) : List.Forall₂ (Trims protocol) items items' := by
  obtain ⟨pre, post, hprunable, _, hstep⟩ := h
  refine List.rel_append (trims_refl pre) (.cons ⟨?_, ?_, (hstep.meta hprunable).2⟩ (trims_refl post))
  · obtain ⟨l, part, r, hv, hv', _⟩ := hstep.parts
    rw [hv, hv']
    exact (List.Sublist.refl l).append (List.sublist_cons_self part r)
  · rw [hprunable, (hstep.meta hprunable).1]

structure Removes (protocol : Protocol) (items items' : List Value) (ns : List Nat) : Prop where
  count : (images protocol items').length + ns.length = (images protocol items).length
  bytes : payloadBytes protocol (images protocol items') + ns.sum = payloadBytes protocol (images protocol items)
  seen : seen protocol items' = seen protocol items
  drop : items'.drop (ImageHistory.seen protocol items) = items.drop (ImageHistory.seen protocol items)
  trims : List.Forall₂ (Trims protocol) items items'

theorem Chain.removes (h : Chain (Omits X protocol) items items' ns) : Removes protocol items items' ns := by
  induction h with
  | refl items => exact ⟨by simp, by simp, rfl, rfl, trims_refl items⟩
  | step hstep _ ih =>
    obtain ⟨l, part, r, hi, hi', hn⟩ := hstep.images
    obtain ⟨hseen, hdrop⟩ := hstep.seen
    refine ⟨?_, ?_, ih.seen.trans hseen, ?_, trims_trans hstep.trims ih.trims⟩
    · have hcount := ih.count
      simp only [hi, hi', List.length_append, List.length_cons] at hcount ⊢
      omega
    · have hbytes := ih.bytes
      simp only [hi, hi', payloadBytes, List.map_append, List.map_cons, List.sum_append, List.sum_cons] at hbytes ⊢
      omega
    · rw [← hdrop, ← hseen, ih.drop]

theorem Removes.unseen (h : Removes protocol items items' ns) : unseen protocol items' = unseen protocol items := by
  unfold ImageHistory.unseen
  rw [h.seen, h.drop]

/-! ## A settled history -/

def Settled (protocol : Protocol) (maxCount : Nat) (items : List Value) : Prop :=
  (∀ p ∈ openParts protocol (items.take (seen protocol items)), removable protocol p = false) ∨
  payloadBytes protocol (images protocol items) ≤ requestBytes / 2 ∧
    ((images protocol items).length < min highWater maxCount ∨
      (images protocol items).length ≤ keep protocol maxCount items)

variable {maxCount : Nat}

theorem sweepSeen_swept (X : Crates) (archive : Option Archive) (items : List Value) (s : Sweep) : ∃ ns, Chain (Omits X protocol) items
      ((sweepItems X protocol archive [] (items.take (seen protocol items)) s).1 ++ items.drop (seen protocol items)) ns ∧
    Swept protocol s (sweepItems X protocol archive [] (items.take (seen protocol items)) s).2
      (openParts protocol (items.take (seen protocol items)))
      (openParts protocol (sweepItems X protocol archive [] (items.take (seen protocol items)) s).1) ns := by
  by_cases hpos : 0 < seen protocol items
  · obtain ⟨ns, hchain, hswept⟩ := sweepItems_swept X archive (items.take (seen protocol items)) [] [] s
      (any_drop_seen hpos)
    exact ⟨ns, by simpa using hchain, hswept⟩
  · rw [Nat.eq_zero_of_not_pos hpos]
    exact ⟨[], .refl _, .none (by simp [openParts, images])⟩

theorem length_sweepItems (X : Crates) (archive : Option Archive) (paths : List (String × String))
    (items : List Value) (s : Sweep) : (sweepItems X protocol archive paths items s).1.length = items.length := by
  induction items generalizing paths s with
  | nil => rfl
  | cons item items ih => simp [sweepItems, ih]

theorem seen_le (items : List Value) : seen protocol items ≤ items.length := by
  induction items with
  | nil => simp [seen]
  | cons item items ih =>
    unfold seen
    split
    · simpa using ih
    · simp

theorem take_sweep (X : Crates) (archive : Option Archive) (s : Sweep) : ((sweepItems X protocol archive []
    (items.take (seen protocol items)) s).1 ++ items.drop (seen protocol items)).take (seen protocol items) =
      (sweepItems X protocol archive [] (items.take (seen protocol items)) s).1 := by
  apply List.take_left'
  rw [length_sweepItems, List.length_take, Nat.min_eq_left (seen_le items)]

theorem Removes.keep (h : Removes protocol items items' ns) :
    keep protocol maxCount items' = keep protocol maxCount items := by
  unfold ImageHistory.keep
  rw [h.unseen]

theorem Removes.settled (h : Removes protocol items items' ns) {s' : Sweep} {ps ps' : List Value}
    (hswept : Swept protocol (startSweep protocol maxCount items) s' ps ps' ns) (hstop : s'.Stop) :
    payloadBytes protocol (images protocol items') ≤ requestBytes / 2 ∧
      (images protocol items').length ≤ ImageHistory.keep protocol maxCount items' := by
  obtain ⟨hremove, hbytes⟩ := hstop
  rw [hswept.remove] at hremove
  rw [hswept.bytes] at hbytes
  have hcount' := h.count
  have hbytes' := h.bytes
  simp only [startSweep] at hremove hbytes
  rw [h.keep]
  omega

theorem prune_spec (X : Crates) (protocol : Protocol) (archive : Option Archive) (maxCount : Nat) (items : List Value) :
    ∃ ns, Chain (Omits X protocol) items (prune X protocol maxCount archive items).items ns ∧
      (prune X protocol maxCount archive items).stats = ⟨ns.length, ns.sum⟩ ∧
      (Settled protocol maxCount items → ns = []) ∧
      Settled protocol maxCount (prune X protocol maxCount archive items).items := by
  by_cases hbelow : (images protocol items).length < min highWater maxCount ∧
      payloadBytes protocol (images protocol items) ≤ requestBytes / 2
  · simp only [prune, hbelow, and_self, if_true]
    exact ⟨[], .refl _, rfl, fun _ => rfl, .inr ⟨hbelow.2, .inl hbelow.1⟩⟩
  · obtain ⟨ns, hchain, hswept⟩ := sweepSeen_swept X archive items (startSweep protocol maxCount items)
    simp only [prune, hbelow, if_false]
    refine ⟨ns, hchain, by simpa [startSweep] using hswept.stats, ?_, ?_⟩
    · intro hsettled
      apply hswept.idle
      rcases hsettled with hnone | ⟨hbytes, hhigh | hkeep⟩
      · exact .inr hnone
      · exact absurd ⟨hhigh, hbytes⟩ hbelow
      · exact .inl ⟨Nat.sub_eq_zero_of_le hkeep, hbytes⟩
    · have hremoves := hchain.removes
      rcases hswept.done with hstop | hnone
      · obtain ⟨hbytes, hkeep⟩ := hremoves.settled hswept hstop
        exact .inr ⟨hbytes, .inr hkeep⟩
      · refine .inl ?_
        rwa [hremoves.seen, take_sweep]

/-! ## Beginnings of a settled history -/

theorem seen_of_trims (h : List.Forall₂ (Trims protocol) items items') : seen protocol items' = seen protocol items ∧
      items'.any (acknowledged protocol) = items.any (acknowledged protocol) := by
  induction h with
  | nil => simp
  | cons h _ ih => simp [seen, ih.1, ih.2, h.2.2]

theorem images_of_trims (h : List.Forall₂ (Trims protocol) items items') :
    (images protocol items').Sublist (images protocol items) := by
  induction h with
  | nil => exact .refl _
  | cons h _ ih => simpa using h.1.append ih

theorem openParts_of_trims (h : List.Forall₂ (Trims protocol) items items') :
    (openParts protocol items').Sublist (openParts protocol items) := by
  induction h with
  | nil => exact .refl _
  | @cons item item' _ _ h _ ih =>
    by_cases hprunable : prunable protocol item = true
    · simpa [openParts, hprunable, h.2.1] using h.1.append ih
    · simpa [openParts, hprunable, h.2.1] using ih

theorem openParts_sublist (protocol : Protocol) (items : List Value) : (openParts protocol items).Sublist (images protocol items) := by
  induction items with
  | nil => exact .refl _
  | cons item items ih =>
    by_cases hprunable : prunable protocol item = true
    · simpa [openParts, hprunable] using (List.Sublist.refl (parts protocol item)).append ih
    · simpa [openParts, hprunable] using ih.trans (List.sublist_append_right _ _)

theorem length_images (protocol : Protocol) (items : List Value) : (images protocol items).length =
    (images protocol (items.take (seen protocol items))).length + (unseen protocol items).length := by
  unfold unseen
  rw [← List.length_append, ← images_append, List.take_append_drop]

theorem openParts_of_le (h : (images protocol items).length ≤ (unseen protocol items).length) :
    openParts protocol (items.take (seen protocol items)) = [] := by
  have hlength := length_images protocol items
  have hle := (openParts_sublist protocol (items.take (seen protocol items))).length_le
  apply List.eq_nil_of_length_eq_zero
  omega

theorem Settled.of_trims (hsettled : Settled protocol maxCount items)
    (h : List.Forall₂ (Trims protocol) items items') : Settled protocol maxCount items' := by
  have hsub := images_of_trims h
  have hopen : (openParts protocol (items'.take (seen protocol items'))).Sublist
      (openParts protocol (items.take (seen protocol items))) := by
    rw [(seen_of_trims h).1]
    exact openParts_of_trims (List.forall₂_take _ h)
  have hlength := hsub.length_le
  rcases hsettled with hnone | ⟨hbytes, hcount⟩
  · exact .inl fun p hp => hnone p (hopen.subset hp)
  have hbytes' : payloadBytes protocol (images protocol items') ≤ requestBytes / 2 := by
    refine Nat.le_trans ?_ hbytes
    exact (hsub.map (payloadLen protocol)).sum_le_sum fun _ _ => Nat.zero_le _
  rcases hcount with hhigh | hkeep
  · exact .inr ⟨hbytes', .inl (Nat.lt_of_le_of_lt hlength hhigh)⟩
  · by_cases hrecent : (images protocol items).length ≤ min recent maxCount
    · exact .inr ⟨hbytes', .inr (Nat.le_trans (Nat.le_trans hlength hrecent) (Nat.le_max_left _ _))⟩
    · have hle : (images protocol items).length ≤ (unseen protocol items).length := by
        unfold keep at hkeep
        omega
      rw [openParts_of_le hle, List.sublist_nil] at hopen
      exact .inl (by simp [hopen])

/-! ## Projection -/

def PrefixSettled (protocol : Protocol) (maxCount : Nat) (items : List Value) : Prop :=
  ∀ k, Settled protocol maxCount (items.take k)

theorem prune_of_settled (X : Crates) (archive : Option Archive) (h : Settled protocol maxCount items) :
    (prune X protocol maxCount archive items).items = items ∧ (prune X protocol maxCount archive items).stats = {} := by
  obtain ⟨ns, hchain, hstats, hidle, _⟩ := prune_spec X protocol archive maxCount items
  cases hidle h
  exact ⟨hchain.eq_of_nil, hstats⟩

theorem PrefixSettled.settled (h : PrefixSettled protocol maxCount items) : Settled protocol maxCount items := by
  simpa using h items.length

theorem PrefixSettled.prune (X : Crates) (archive : Option Archive) (h : PrefixSettled protocol maxCount items)
    (item : Value) : PrefixSettled protocol maxCount (prune X protocol maxCount archive (items ++ [item])).items := by
  intro k
  obtain ⟨ns, hchain, _, _, hsettled⟩ := prune_spec X protocol archive maxCount (items ++ [item])
  have htrims := hchain.removes.trims
  by_cases hk : k ≤ items.length
  · apply (h k).of_trims
    have htake := List.forall₂_take k htrims
    rwa [List.take_append_of_le_length hk] at htake
  · have hlength := htrims.length_eq
    rw [List.length_append, List.length_singleton] at hlength
    rwa [List.take_of_length_le (by omega)]

structure Pushed (X : Crates) (protocol : Protocol) (maxCount : Nat) (items : List Value) (p : Progress) : Prop where
  omits : ∃ ns, Chain (Omits X protocol) items p.items ns ∧ p.stats = ⟨ns.length, ns.sum⟩
  settled : PrefixSettled protocol maxCount p.items

variable {p : Progress} {value : Value}

theorem Pushed.push (archive : Option Archive) (h : Pushed X protocol maxCount items p) (item : Value) :
    Pushed X protocol maxCount (items ++ [item]) (pushItem X protocol maxCount archive p item) := by
  obtain ⟨ns, hchain, hstats⟩ := h.omits
  obtain ⟨ms, hchain', hstats', _, _⟩ := prune_spec X protocol archive maxCount (p.items ++ [item])
  refine ⟨⟨ns ++ ms, (hchain.map (· ++ [item]) fun _ _ _ h => h.append _).trans hchain', ?_⟩, h.settled.prune X archive item⟩
  simp only [pushItem, Progress.next, hstats, hstats', List.length_append, List.sum_append]
  rfl

theorem pushed_append (archive : Option Archive) (h : Pushed X protocol maxCount items p) (more : List Value) :
    Pushed X protocol maxCount (items ++ more) (more.foldl (pushItem X protocol maxCount archive) p) := by
  induction more generalizing items p with
  | nil => simpa using h
  | cons item more ih => simpa using ih (h.push archive item)

theorem pushed (X : Crates) (protocol : Protocol) (maxCount : Nat) (archive : Option Archive) (items : List Value) :
    Pushed X protocol maxCount items (pushAll X protocol maxCount archive items) := by
  have hnil : Pushed X protocol maxCount [] {} := ⟨⟨[], .refl _, rfl⟩, fun k => .inl (by simp [openParts, images])⟩
  exact pushed_append archive hnil items

theorem push_of_settled (X : Crates) (archive : Option Archive) {more : List Value}
    (h : PrefixSettled protocol maxCount (p.items ++ more)) :
    (more.foldl (pushItem X protocol maxCount archive) p).items = p.items ++ more ∧
      (more.foldl (pushItem X protocol maxCount archive) p).stats = p.stats := by
  induction more generalizing p with
  | nil => simp
  | cons item more ih =>
    have hsettled : Settled protocol maxCount (p.items ++ [item]) := by
      simpa [List.take_append, List.take_of_length_le] using h (p.items.length + 1)
    obtain ⟨hitems, hstats⟩ := prune_of_settled X archive hsettled
    have hpush : (pushItem X protocol maxCount archive p item).items = p.items ++ [item] := hitems
    have hsame : (pushItem X protocol maxCount archive p item).stats = p.stats := by
      rw [pushItem, Progress.next, hstats]
      rfl
    rw [List.foldl_cons, ← hsame]
    have hmore := ih (p := pushItem X protocol maxCount archive p item) (by simpa [hpush] using h)
    simpa [hpush] using hmore

theorem pushAll_of_settled (X : Crates) (archive : Option Archive) (h : PrefixSettled protocol maxCount items) :
    (pushAll X protocol maxCount archive items).items = items ∧ (pushAll X protocol maxCount archive items).stats = {} :=
  push_of_settled X archive (p := {}) h

theorem push_congr (X : Crates) (archive : Option Archive) {q : Progress} (h : p.items = q.items)
    (more : List Value) : (more.foldl (pushItem X protocol maxCount archive) p).items =
      (more.foldl (pushItem X protocol maxCount archive) q).items := by
  induction more generalizing p q with
  | nil => exact h
  | cons item more ih => exact ih (by simp [pushItem, Progress.next, h])

theorem history_put (h : history protocol value = some items) (items' : List Value) :
    history protocol (value.put protocol.field (.array items')) = some items' := by
  obtain ⟨v, hget, _⟩ := Option.bind_eq_some_iff.mp h
  cases value with
  | object fields =>
    have hput : (Fields.put fields protocol.field (.array items')).get protocol.field = some (.array items') :=
      Fields.get_put_self hget _
    simp [history, Value.put, Value.get, hput, Value.asArray]
  | _ => cases hget

theorem put_history (h : history protocol value = some items) : value.put protocol.field (.array items) = value := by
  obtain ⟨v, hget, harray⟩ := Option.bind_eq_some_iff.mp h
  cases value with
  | object fields =>
    cases v with
    | array items' =>
      cases harray
      exact congrArg Value.object (Fields.put_self hget)
    | _ => cases harray
  | _ => cases hget

theorem project_eq (X : Crates) (maxCount : Nat) (archive : Option Archive)
    (h : history protocol value = some items) : project X protocol maxCount archive value =
      if maxCount < (unseen protocol items).length then .error batchError
      else .ok ⟨value.put protocol.field (.array (pushAll X protocol maxCount archive items).items),
        (pushAll X protocol maxCount archive items).stats, (pushAll X protocol maxCount archive items).calls ++
          (prune X protocol maxCount archive (pushAll X protocol maxCount archive items).items).calls⟩ := by
  obtain ⟨⟨ns, hchain, _⟩, hsettled⟩ := pushed X protocol maxCount archive items
  obtain ⟨hitems, hstats⟩ := prune_of_settled X archive hsettled.settled
  have hunseen := hchain.removes.unseen
  by_cases hlt : maxCount < (unseen protocol items).length
  · simp [project, h, hlt]
  · simp only [project, h, hlt, if_false, pruneEnforced, hunseen, Gateway.ok_bind_eq, hitems, hstats]
    rfl

theorem project_touches_old_images (X : Crates) (protocol : Protocol) (maxCount : Nat) (archive : Option Archive)
    (value : Value) {r : Projected} (h : project X protocol maxCount archive value = .ok r) :
    match history protocol value with
    | none => r.value = value ∧ r.stats = {}
    | some items => ∃ items' ns, Chain (Omits X protocol) items items' ns ∧
        r.value = value.put protocol.field (.array items') ∧ r.stats = ⟨ns.length, ns.sum⟩ ∧
        items'.length = items.length ∧
        items'.drop (seen protocol items) = items.drop (seen protocol items) := by
  cases hhistory : history protocol value with
  | none =>
    simp only [project, hhistory, Except.ok.injEq] at h
    rw [← h]
    exact ⟨rfl, rfl⟩
  | some items =>
    obtain ⟨⟨ns, hchain, hstats⟩, _⟩ := pushed X protocol maxCount archive items
    have hremoves := hchain.removes
    rw [project_eq X maxCount archive hhistory] at h
    split at h
    · cases h
    · rw [Except.ok.injEq] at h
      exact ⟨_, ns, hchain, by rw [← h], by rw [← h, hstats], hremoves.trims.length_eq.symm, hremoves.drop⟩

def plainCrates : Crates where
  fromStr _ := none
  toText _ := ""
  decode _ := none
  encode _ := ""
  dimensions _ _ := none
  sha256 s := s
  isWhitespace _ := false

def answered (part : Value) : List Value :=
  [.object [("role", .string "user"), ("content", .array [part])], .object [("role", .string "assistant")]]

def inlineImage : Value :=
  .object [("type", .string "image"), ("source", .object [("type", .string "base64"),
    ("media_type", .string "image/png"), ("data", .string "AAAA")])]

def answeredImage : Value := .object [("messages", .array (answered inlineImage))]

def answeredText : Value := .object [("messages", .array (answered (omitted plainCrates .anthropic "AAAA" none)))]

theorem project_answered : project plainCrates .anthropic 0 none answeredImage = .ok ⟨answeredText, ⟨1, 4⟩, []⟩ := rfl

theorem answered_image_touched : ∃ items' ns, Chain (Omits plainCrates .anthropic) (answered inlineImage) items' ns ∧
    answeredText = answeredImage.put "messages" (.array items') ∧ (⟨1, 4⟩ : Statistics) = ⟨ns.length, ns.sum⟩ ∧
    items'.length = 2 ∧ items'.drop 1 = [.object [("role", .string "assistant")]] :=
  project_touches_old_images plainCrates .anthropic 0 none answeredImage project_answered

theorem project_append (X : Crates) (maxCount : Nat) (archive : Option Archive)
    (h : history protocol value = some items) (xs : List Value) :
    (project X protocol maxCount archive (value.put protocol.field
      (.array ((pushAll X protocol maxCount archive items).items ++ xs)))).map (·.value) =
    (project X protocol maxCount archive (value.put protocol.field (.array (items ++ xs)))).map (·.value) := by
  obtain ⟨⟨ns, hchain, _⟩, hsettled⟩ := pushed X protocol maxCount archive items
  generalize hprojected : (pushAll X protocol maxCount archive items).items = projected at hchain hsettled ⊢
  have hunseen := (hchain.map (· ++ xs) fun _ _ _ h => h.append xs).removes.unseen
  have hagain := (pushAll_of_settled X archive hsettled).1
  have hitems : (pushAll X protocol maxCount archive (projected ++ xs)).items =
      (pushAll X protocol maxCount archive (items ++ xs)).items := by
    simp only [pushAll, List.foldl_append]
    exact push_congr X archive (hagain.trans hprojected.symm) xs
  rw [project_eq X maxCount archive (history_put h _), project_eq X maxCount archive (history_put h _), hunseen, hitems,
    Value.put_put, Value.put_put]
  split <;> rfl

theorem project_compositional (X : Crates) (protocol : Protocol) (maxCount : Nat) (archive : Option Archive)
    (value : Value) {items : List Value} {r : Projected} (hitems : history protocol value = some items)
    (h : project X protocol maxCount archive value = .ok r) :
    ∃ projected, r.value = value.put protocol.field (.array projected) ∧
      (∀ xs, (project X protocol maxCount archive (value.put protocol.field (.array (projected ++ xs)))).map (·.value) =
        (project X protocol maxCount archive (value.put protocol.field (.array (items ++ xs)))).map (·.value)) ∧
      (project X protocol maxCount archive r.value).map (·.value) = .ok r.value := by
  have hvalue : r.value = value.put protocol.field (.array (pushAll X protocol maxCount archive items).items) := by
    rw [project_eq X maxCount archive hitems] at h
    split at h
    · cases h
    · rw [Except.ok.injEq] at h
      rw [← h]
  refine ⟨_, hvalue, project_append X maxCount archive hitems, ?_⟩
  have hagain := project_append X maxCount archive hitems []
  rw [List.append_nil, List.append_nil, put_history hitems, ← hvalue, h] at hagain
  exact hagain

theorem answered_image_compositional : ∃ projected, answeredText = answeredImage.put "messages" (.array projected) ∧
    (∀ xs, (project plainCrates .anthropic 0 none (answeredImage.put "messages" (.array (projected ++ xs)))).map (·.value) =
      (project plainCrates .anthropic 0 none
        (answeredImage.put "messages" (.array (answered inlineImage ++ xs)))).map (·.value)) ∧
    (project plainCrates .anthropic 0 none answeredText).map (·.value) = .ok answeredText :=
  project_compositional plainCrates .anthropic 0 none answeredImage rfl project_answered

/-! ## The bound -/

def AllRemovable (protocol : Protocol) (items : List Value) : Prop :=
  ∀ item ∈ items, ∀ part ∈ parts protocol item, prunable protocol item = true ∧ removable protocol part = true

theorem AllRemovable.of_trims (hall : AllRemovable protocol items) (h : List.Forall₂ (Trims protocol) items items') :
    AllRemovable protocol items' := by
  induction h with
  | nil => exact hall
  | cons h _ ih =>
    obtain ⟨hitem, hitems⟩ := List.forall_mem_cons.mp hall
    refine List.forall_mem_cons.mpr ⟨?_, ih hitems⟩
    intro part hpart
    rw [h.2.1]
    exact hitem part (h.1.subset hpart)

theorem AllRemovable.images_eq_nil (hall : AllRemovable protocol items)
    (hnone : ∀ p ∈ openParts protocol items, removable protocol p = false) : images protocol items = [] := by
  apply List.eq_nil_iff_forall_not_mem.mpr
  intro part hpart
  obtain ⟨item, hitem, hpart⟩ := List.mem_flatMap.mp hpart
  obtain ⟨hprunable, hremovable⟩ := hall item hitem part hpart
  have hopen : part ∈ openParts protocol items :=
    List.mem_flatMap.mpr ⟨item, List.mem_filter.mpr ⟨hitem, hprunable⟩, hpart⟩
  simp [hnone part hopen] at hremovable

theorem Settled.bound (h : Settled protocol maxCount items)
    (hall : AllRemovable protocol (items.take (seen protocol items)))
    (hle : (unseen protocol items).length ≤ maxCount) : (images protocol items).length ≤ maxCount ∧
      (payloadBytes protocol (images protocol items) ≤ requestBytes / 2 ∨
        images protocol (items.take (seen protocol items)) = []) := by
  rcases h with hnone | ⟨hbytes, hcount⟩
  · have hseen := hall.images_eq_nil hnone
    refine ⟨?_, .inr hseen⟩
    rw [length_images, hseen]
    simpa using hle
  · refine ⟨?_, .inl hbytes⟩
    unfold keep at hcount
    omega

theorem project_bounds (X : Crates) (protocol : Protocol) (maxCount : Nat) (archive : Option Archive) (value : Value)
    {items : List Value} (hitems : history protocol value = some items)
    (hall : AllRemovable protocol (items.take (seen protocol items))) :
    (∀ r, project X protocol maxCount archive value = .ok r → ∃ projected, history protocol r.value = some projected ∧
      (images protocol projected).length ≤ maxCount ∧
      (payloadBytes protocol (images protocol projected) ≤ requestBytes / 2 ∨
        images protocol (projected.take (seen protocol projected)) = [])) ∧
    ((∃ e, project X protocol maxCount archive value = .error e) ↔ maxCount < (unseen protocol items).length) := by
  obtain ⟨⟨ns, hchain, _⟩, hsettled⟩ := pushed X protocol maxCount archive items
  have hremoves := hchain.removes
  rw [project_eq X maxCount archive hitems]
  by_cases hlt : maxCount < (unseen protocol items).length
  · simp [hlt]
  · refine ⟨?_, by simp [hlt]⟩
    intro r h
    rw [if_neg hlt, Except.ok.injEq] at h
    refine ⟨_, by rw [← h, history_put hitems], ?_⟩
    apply hsettled.settled.bound
    · rw [hremoves.seen]
      exact hall.of_trims (List.forall₂_take _ hremoves.trims)
    · rw [hremoves.unseen]
      exact Nat.not_lt.mp hlt

theorem answered_image_bounded : (∀ r, project plainCrates .anthropic 0 none answeredImage = .ok r → ∃ projected,
      history .anthropic r.value = some projected ∧ (images .anthropic projected).length ≤ 0 ∧
      (payloadBytes .anthropic (images .anthropic projected) ≤ requestBytes / 2 ∨
        images .anthropic (projected.take (seen .anthropic projected)) = [])) ∧
    ((∃ e, project plainCrates .anthropic 0 none answeredImage = .error e) ↔
      0 < (unseen .anthropic (answered inlineImage)).length) := by
  apply project_bounds plainCrates .anthropic 0 none answeredImage rfl
  intro item hitem part hpart
  cases List.mem_singleton.mp hitem
  cases List.mem_singleton.mp hpart
  exact ⟨rfl, rfl⟩

end

end Sparkplane.ImageHistory
