import Sparkplane.ImageHistorySound

/-!
# Streaming and buffered projection

`project_reader` prunes while it reads, and then projects what it has read once
more. The second projection changes nothing, so both ways agree.
-/

namespace Sparkplane.ImageHistory

open Gateway (Crates)

section
variable {X : Crates} {protocol : Protocol} {maxCount : Nat} {archive : Option Archive}
  {fault : Nat → Option ReaderError} {seed seed' : Seed} {items rest : List Value} {text : Nat}

theorem read_ok (h : read fault seed = .ok seed') : seed'.stats = seed.stats ∧ seed'.calls = seed.calls := by
  unfold read at h
  split at h
  · cases h
  · cases h
    exact ⟨rfl, rfl⟩

theorem visitItems_ok {items' : List Value}
    (h : visitItems X protocol maxCount archive fault rest text items seed = .ok (items', seed')) :
    rest.foldl (pushItem X protocol maxCount archive) ⟨items, seed.stats, seed.calls⟩ =
      ⟨items', seed'.stats, seed'.calls⟩ := by
  induction rest generalizing text items seed with
  | nil =>
    obtain ⟨seed1, hread, h⟩ := Gateway.ok_bind h
    obtain ⟨hstats, hcalls⟩ := read_ok hread
    cases h
    rw [List.foldl_nil, hstats, hcalls]
  | cons item rest ih =>
    obtain ⟨seed1, hread, h⟩ := Gateway.ok_bind h
    obtain ⟨hstats, hcalls⟩ := read_ok hread
    obtain ⟨_, h⟩ := Gateway.refuse_bind h
    obtain ⟨_, h⟩ := Gateway.refuse_bind h
    rw [List.foldl_cons, ← hstats, ← hcalls]
    exact ih h

theorem visitSeq_ok {value : Value} (h : visitSeq X protocol maxCount archive fault items seed = .ok (value, seed'))
    (hstats : seed.stats = {}) (hcalls : seed.calls = []) :
    (unseen protocol items).length ≤ maxCount ∧
    value = .array (pushAll X protocol maxCount archive items).items ∧
    seed'.stats = (pushAll X protocol maxCount archive items).stats ∧
    seed'.calls = (pushAll X protocol maxCount archive items).calls ++
      (prune X protocol maxCount archive (pushAll X protocol maxCount archive items).items).calls := by
  obtain ⟨⟨items', seed1⟩, hvisit, h⟩ := Gateway.ok_bind h
  have hpush := visitItems_ok hvisit
  rw [hstats, hcalls] at hpush
  obtain ⟨⟨ns, hchain, _⟩, hsettled⟩ := pushed X protocol maxCount archive items
  have hunseen := hchain.removes.unseen
  rw [show pushAll X protocol maxCount archive items = ⟨items', seed1.stats, seed1.calls⟩ from hpush] at hsettled hunseen ⊢
  obtain ⟨hitems, hnone⟩ := prune_of_settled X archive hsettled.settled
  simp only [pruneEnforced] at h
  by_cases hlt : maxCount < (unseen protocol items').length
  · simp [hlt] at h
  · simp only [hlt, if_false, Except.ok.injEq, Prod.mk.injEq] at h
    obtain ⟨rfl, rfl⟩ := h
    refine ⟨by rw [← hunseen]; exact Nat.not_lt.mp hlt, by rw [hitems], ?_, rfl⟩
    rw [hnone]
    rfl

/-! ## The fields of the request -/

theorem contains_append (fields fields' : Fields) (key : String) :
    Fields.contains (fields ++ fields') key = (fields.contains key || fields'.contains key) := by
  simp [Fields.contains, Fields.get_append]

variable {fields : List (String × Value)} {object : Fields} {other : Nat} {value : Value}

theorem visitMap_cons {key : String} {v : Value}
    (h : visitMap X protocol maxCount archive fault ((key, v) :: fields) object other seed = .ok (value, seed')) :
    object.contains key = false ∧ ∃ v' seed0 seed1 other',
      visitMap X protocol maxCount archive fault fields (object ++ [(key, v')]) other' seed1 = .ok (value, seed') ∧
      seed0.stats = seed.stats ∧ seed0.calls = seed.calls ∧
      if key = protocol.field then visitAny X protocol maxCount archive fault v seed0 = .ok (v', seed1)
      else v' = v ∧ seed1.stats = seed0.stats ∧ seed1.calls = seed0.calls := by
  obtain ⟨seed0, hread, h⟩ := Gateway.ok_bind h
  obtain ⟨hfresh, h⟩ := Gateway.refuse_bind h
  obtain ⟨hstats, hcalls⟩ := read_ok hread
  refine ⟨hfresh, ?_⟩
  by_cases hkey : key = protocol.field
  · rw [if_pos hkey] at h
    obtain ⟨⟨v', seed1⟩, hany, h⟩ := Gateway.ok_bind h
    refine ⟨v', seed0, seed1, other, ?_, hstats, hcalls, by rwa [if_pos hkey]⟩
    rw [← Fields.insert_of_notContains hfresh]
    exact h
  · rw [if_neg hkey] at h
    obtain ⟨seed1, hread', h⟩ := Gateway.ok_bind h
    obtain ⟨_, h⟩ := Gateway.refuse_bind h
    rw [Fields.insert_of_notContains hfresh] at h
    exact ⟨v, seed0, seed1, _, h, hstats, hcalls, by rw [if_neg hkey]; exact ⟨rfl, read_ok hread'⟩⟩

theorem visitMap_fresh (h : visitMap X protocol maxCount archive fault fields object other seed = .ok (value, seed'))
    {object' : Fields} (hkeys : ∀ key, object'.contains key = object.contains key) :
    fields.foldl (fun object f => Fields.insert object f.1 f.2) object' = object' ++ fields := by
  induction fields generalizing object object' other seed with
  | nil => simp
  | cons f fields ih =>
    obtain ⟨hfresh, v', _, _, _, h, _⟩ := visitMap_cons h
    have hkeys' : ∀ key, Fields.contains (object' ++ [(f.1, f.2)]) key = Fields.contains (object ++ [(f.1, v')]) key := by
      intro key
      rw [contains_append, contains_append, hkeys]
      by_cases h : key = f.1 <;> simp [Fields.contains, Fields.get_cons, h]
    rw [List.foldl_cons, Fields.insert_of_notContains ((hkeys _).trans hfresh), ih h hkeys', List.append_assoc]
    rfl

theorem visitMap_after (h : visitMap X protocol maxCount archive fault fields object other seed = .ok (value, seed'))
    (hcontains : object.contains protocol.field = true) :
    value = .object (object ++ fields) ∧ seed'.stats = seed.stats ∧ seed'.calls = seed.calls := by
  induction fields generalizing object other seed with
  | nil =>
    obtain ⟨seed1, hread, h⟩ := Gateway.ok_bind h
    cases h
    exact ⟨by simp, read_ok hread⟩
  | cons f fields ih =>
    obtain ⟨hfresh, v', seed0, seed1, _, h, hstats, hcalls, hrest⟩ := visitMap_cons h
    have hne : f.1 ≠ protocol.field := by
      rintro hkey
      rw [hkey, hcontains] at hfresh
      cases hfresh
    rw [if_neg hne] at hrest
    obtain ⟨rfl, hstats1, hcalls1⟩ := hrest
    obtain ⟨hvalue, hstats', hcalls'⟩ := ih h (by simp [contains_append, hcontains])
    exact ⟨by simpa using hvalue, by rw [hstats', hstats1, hstats], by rw [hcalls', hcalls1, hcalls]⟩

theorem visitMap_ok (h : visitMap X protocol maxCount archive fault fields object other seed = .ok (value, seed'))
    (hnone : object.get protocol.field = none) :
    (Fields.get (object ++ fields) protocol.field = none ∧ value = .object (object ++ fields) ∧
      seed'.stats = seed.stats ∧ seed'.calls = seed.calls) ∨
    ∃ v v' seed0 seed1, Fields.get (object ++ fields) protocol.field = some v ∧
      visitAny X protocol maxCount archive fault v seed0 = .ok (v', seed1) ∧
      value = .object (Fields.put (object ++ fields) protocol.field v') ∧
      seed0.stats = seed.stats ∧ seed0.calls = seed.calls ∧
      seed'.stats = seed1.stats ∧ seed'.calls = seed1.calls := by
  induction fields generalizing object other seed with
  | nil =>
    obtain ⟨seed1, hread, h⟩ := Gateway.ok_bind h
    cases h
    exact .inl ⟨by simpa using hnone, by simp, read_ok hread⟩
  | cons f fields ih =>
    obtain ⟨hfresh, v', seed0, seed1, _, h, hstats, hcalls, hrest⟩ := visitMap_cons h
    by_cases hkey : f.1 = protocol.field
    · rw [if_pos hkey] at hrest
      have hcontains : Fields.contains (object ++ [(f.1, v')]) protocol.field = true := by
        rw [contains_append]
        simp [Fields.contains, Fields.get_cons, hkey]
      obtain ⟨hvalue, hstats', hcalls'⟩ := visitMap_after h hcontains
      refine .inr ⟨f.2, v', seed0, seed1, ?_, hrest, ?_, hstats, hcalls, hstats', hcalls'⟩
      · simp [Fields.get_append, hnone, Fields.get_cons, hkey]
      · rw [hvalue, Fields.put_append_of_none hnone]
        simp [Fields.put, hkey]
    · rw [if_neg hkey] at hrest
      obtain ⟨rfl, hstats1, hcalls1⟩ := hrest
      have hnone' : Fields.get (object ++ [(f.1, f.2)]) protocol.field = none := by
        simp [Fields.get_append, hnone, Fields.get_cons, Ne.symm hkey]
      have hrest := ih h hnone'
      simpa [hstats1, hstats, hcalls1, hcalls] using hrest

theorem history_of_get (hget : Fields.get fields protocol.field = some (.array items)) :
    history protocol (.object fields) = some items := by
  simp [history, Value.get, hget, Value.asArray]

theorem project_again (X : Crates) (archive : Option Archive) {parsedBody : Value}
    (hitems : history protocol parsedBody = some items) (hle : (unseen protocol items).length ≤ maxCount) :
    ∃ calls, project X protocol maxCount none
      (parsedBody.put protocol.field (.array (pushAll X protocol maxCount archive items).items)) =
        .ok ⟨parsedBody.put protocol.field (.array (pushAll X protocol maxCount archive items).items), {}, calls⟩ := by
  obtain ⟨⟨ns, hchain, _⟩, hsettled⟩ := pushed X protocol maxCount archive items
  obtain ⟨hsame, hnone⟩ := pushAll_of_settled X none hsettled
  have h := project_eq X maxCount none (history_put hitems (pushAll X protocol maxCount archive items).items)
  rw [hchain.removes.unseen, if_neg (Nat.not_lt.mpr hle), hsame, hnone, Value.put_put] at h
  exact ⟨_, h⟩

theorem visited_projected (hparsed : ∀ v, Fields.get fields protocol.field ≠ some (.object v))
    (h : visitMap X protocol maxCount archive fault fields [] 0 {} = .ok (value, seed')) :
    project X protocol maxCount archive (.object fields) = .ok ⟨value, seed'.stats, seed'.calls⟩ ∧
      ∃ calls, project X protocol maxCount none value = .ok ⟨value, {}, calls⟩ := by
  -- Where there is no array, both leave the value as it is.
  have hplain : history protocol (.object fields) = none → value = .object fields → seed'.stats = {} →
      seed'.calls = [] → project X protocol maxCount archive (.object fields) = .ok ⟨value, seed'.stats, seed'.calls⟩ ∧
        ∃ calls, project X protocol maxCount none value = .ok ⟨value, {}, calls⟩ := by
    intro hnone hvalue hstats hcalls
    subst hvalue
    simp [project, hnone, hstats, hcalls]
  rcases visitMap_ok h rfl with ⟨hget, hvalue, hstats, hcalls⟩ |
      ⟨v, v', seed0, seed1, hget, hany, hvalue, hstats0, hcalls0, hstats, hcalls⟩
  · exact hplain (by simp [history, Value.get, show Fields.get fields protocol.field = none from hget]) hvalue hstats hcalls
  · change Fields.get fields protocol.field = some v at hget
    cases v with
    | array items =>
      obtain ⟨hle, rfl, hstats1, hcalls1⟩ := visitSeq_ok hany hstats0 hcalls0
      have hitems := history_of_get hget
      subst hvalue
      refine ⟨?_, project_again X archive hitems hle⟩
      rw [project_eq X maxCount archive hitems, if_neg (Nat.not_lt.mpr hle), hstats, hcalls, hstats1, hcalls1]
      rfl
    | string text =>
      obtain ⟨seed2, hread, hok⟩ := Gateway.ok_bind hany
      cases hok
      obtain ⟨hstats2, hcalls2⟩ := read_ok hread
      refine hplain (by simp [history, Value.get, hget, Value.asArray]) ?_ ?_ ?_
      · rw [hvalue]
        exact congrArg Value.object (Fields.put_self hget)
      · rw [hstats, hstats2, hstats0]
      · rw [hcalls, hcalls2, hcalls0]
    | object v => exact absurd hget (hparsed v)
    | _ => cases hany

theorem reader_agrees (X : Crates) (protocol : Protocol) (maxCount : Nat) (archive : Option Archive)
    (fault : Nat → Option ReaderError) (trailing : Bool) (body : Value)
    (hbody : ∀ fields, (parsed body).get protocol.field ≠ some (.object fields)) :
    (∀ r, projectReader X protocol maxCount archive fault trailing body = .ok r →
      project X protocol maxCount archive (parsed body) = .ok r) ∧
    ∀ e, project X protocol maxCount archive (parsed body) = .error e →
      ∃ e', projectReader X protocol maxCount archive fault trailing body = .error e' := by
  have hok : ∀ r, projectReader X protocol maxCount archive fault trailing body = .ok r →
      project X protocol maxCount archive (parsed body) = .ok r := by
    intro r h
    cases body with
    | object fields =>
      simp only [projectReader] at h
      cases hvisit : visitMap X protocol maxCount archive fault fields [] 0 {} with
      | error e => simp [hvisit] at h
      | ok visited =>
        obtain ⟨value, seed⟩ := visited
        have hfields := visitMap_fresh hvisit (fun _ => rfl)
        have hparsed : parsed (.object fields) = .object fields := congrArg Value.object hfields
        rw [hparsed] at hbody ⊢
        obtain ⟨hproject, calls, hagain⟩ := visited_projected hbody hvisit
        simp only [hvisit] at h
        obtain ⟨_, h⟩ := Gateway.refuse_bind h
        obtain ⟨last, hlast, h⟩ := Gateway.ok_bind h
        obtain ⟨_, h⟩ := Gateway.refuse_bind h
        rw [hagain] at hlast
        cases hlast
        cases h
        exact hproject
    | _ => cases h
  refine ⟨hok, ?_⟩
  intro e he
  cases hreader : projectReader X protocol maxCount archive fault trailing body with
  | error e' => exact ⟨e', rfl⟩
  | ok r =>
    rw [hok r hreader] at he
    cases he

theorem answered_image_read : project plainCrates .anthropic 0 none answeredImage = .ok ⟨answeredText, ⟨1, 4⟩, []⟩ := by
  have hbody : ∀ fields, (parsed answeredImage).get "messages" ≠ some (.object fields) := by
    have hget : (parsed answeredImage).get "messages" = some (.array (answered inlineImage)) := rfl
    simp [hget]
  exact (reader_agrees plainCrates .anthropic 0 none (fun _ => none) false answeredImage hbody).1
    ⟨answeredText, ⟨1, 4⟩, []⟩ rfl

end

end Sparkplane.ImageHistory
