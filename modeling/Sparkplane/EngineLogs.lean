import Mathlib.Algebra.GroupWithZero.Nat
import Mathlib.Algebra.Ring.Int.Defs
import Mathlib.Data.List.Infix

/-!
# Log pages

`logs` asks Docker for the last `limit + 1` lines from the second of the cursor
on and keeps those after the cursor. A line whose time does not fit `i64`
nanoseconds has no cursor and is left out without a mark.
-/

namespace Sparkplane.Logs

/-- A line of the container's log; its time is in nanoseconds. -/
structure Line where
  time : Int
  text : String

def docker (log : List Line) (since tail : Nat) : List Line :=
  let found := log.filter fun l => ((since * 1000000000 : Nat) : Int) ≤ l.time
  found.drop (found.length - tail)

def Line.fits (l : Line) : Bool := l.time < 2 ^ 63

variable (redact : String → String)

def stamped (l : Line) : Nat × String := (l.time.toNat, redact l.text)

/-- `timestamp_nanos_opt`, then `u64::try_from`. -/
def timestampedLogLine (l : Line) : Option (Nat × String) :=
  if 0 ≤ l.time ∧ l.fits then some (stamped redact l) else none

/-- `EngineLogs`, before the cursors of the lines are dropped. -/
structure Page where
  cursor : Nat
  nextCursor : Nat
  truncated : Bool
  lines : List (Nat × String)

def Page.times (page : Page) : List Nat := page.lines.map Prod.fst

def maxEngineLogLines : Nat := 256

def unread (log : List Line) (cursor limit : Nat) : List (Nat × String) :=
  ((docker log (min (cursor / 1000000000) (2 ^ 31 - 1)) (limit + 1)).filterMap (timestampedLogLine redact)).filter
    fun l => cursor < l.1

def logs (log : List Line) (cursor limit : Nat) : Option Page :=
  if limit = 0 ∨ maxEngineLogLines < limit then none
  else
    let lines := unread redact log cursor limit
    let truncated := limit < lines.length
    let lines := if truncated then lines.drop (lines.length - limit) else lines
    some ⟨cursor, (lines.getLast?.map Prod.fst).getD cursor, truncated, lines⟩

/-- The log as a call finds it. -/
structure Call where
  log : List Line
  limit : Nat

def pages : Nat → List Call → List (Call × Page)
  | _, [] => []
  | cursor, call :: calls =>
    match logs redact call.log cursor call.limit with
    | none => pages cursor calls
    | some page => (call, page) :: pages page.nextCursor calls

structure Growing (calls : List Call) : Prop where
  accepted : ∀ call ∈ calls, ¬(call.limit = 0 ∨ maxEngineLogLines < call.limit)
  ordered : ∀ call ∈ calls, call.log.Pairwise (·.time < ·.time)
  grows : calls.Pairwise (·.log <+: ·.log)

structure Session where
  calls : List Call
  growing : Growing calls

/-! ## What a call should return -/

def newer (log : List Line) (cursor : Nat) : List Line := log.filter fun l => (cursor : Int) < l.time

def newest (log : List Line) (cursor n : Nat) : List Line := (newer log cursor).drop ((newer log cursor).length - n)

structure Exact (call : Call) (page : Page) : Prop where
  lines : page.lines.map Prod.snd = (newest call.log page.cursor call.limit).map fun l => redact l.text
  truncated : page.truncated = true ↔ call.limit < (newer call.log page.cursor).length

/-- Some page has returned the line, or was marked when it skipped it. -/
def Accounted (run : List (Call × Page)) (l : Line) : Prop :=
  ∃ x ∈ run, l ∈ newer x.1.log x.2.cursor ∧ (l.time.toNat ∈ x.2.times ∨ x.2.truncated = true)

structure Lossless (cursor : Nat) (calls : List Call) : Prop where
  exact : ∀ x ∈ pages redact cursor calls, Exact redact x.1 x.2
  once : ((pages redact cursor calls).flatMap (·.2.times)).Pairwise (· < ·)
  kept : ∀ call ∈ calls, ∀ l ∈ newer call.log cursor, Accounted (pages redact cursor calls) l

section
variable {redact} {log : List Line} {cursor limit : Nat} {call : Call} {calls : List Call}
variable {page : Page} {l : Line}

theorem mem_newer : l ∈ newer log cursor ↔ l ∈ log ∧ (cursor : Int) < l.time := by simp [newer]

section
variable (h : log.Pairwise (·.time < ·.time))
include h

theorem newer_suffix (cursor : Nat) : ∃ old, log = old ++ newer log cursor ∧ newer old cursor = [] := by
  induction log with
  | nil => exact ⟨[], rfl, rfl⟩
  | cons a log ih =>
    by_cases ha : (cursor : Int) < a.time
    · have hall : newer (a :: log) cursor = a :: log := by
        refine List.filter_eq_self.mpr fun l hl => ?_
        rcases List.mem_cons.mp hl with rfl | hl
        · simpa using ha
        · simpa using Int.lt_trans ha (List.rel_of_pairwise_cons h hl)
      exact ⟨[], hall.symm, rfl⟩
    · obtain ⟨old, hlog, hold⟩ := ih h.of_cons
      refine ⟨a :: old, ?_, by simpa [newer, ha] using hold⟩
      simpa [newer, ha] using hlog

theorem newer_docker {since : Nat} (hsince : since * 1000000000 ≤ cursor) (tail : Nat) :
    newer (docker log since tail) cursor = newest log cursor tail := by
  unfold docker newest
  dsimp only
  generalize hfound : log.filter (fun l => ((since * 1000000000 : Nat) : Int) ≤ l.time) = found
  have hnewer : newer found cursor = newer log cursor := by
    rw [← hfound, newer, newer, List.filter_filter]
    apply List.filter_congr
    intro l _
    rw [Bool.and_eq_left_iff_imp]
    simp
    omega
  obtain ⟨old, hsplit, hold⟩ := newer_suffix (hfound ▸ h.filter _ : found.Pairwise (·.time < ·.time)) cursor
  rw [hnewer] at hsplit
  have hold' : ∀ n, newer (old.drop n) cursor = [] := fun n =>
    List.filter_eq_nil_iff.mpr fun l hl => List.filter_eq_nil_iff.mp hold l (List.mem_of_mem_drop hl)
  have hrest : ∀ n, newer ((newer log cursor).drop n) cursor = (newer log cursor).drop n :=
    fun n => List.filter_eq_self.mpr fun l hl => (List.mem_filter.mp (List.mem_of_mem_drop hl)).2
  rw [hsplit, List.drop_append, newer, List.filter_append, ← newer, ← newer, hold', hrest, List.nil_append]
  congr 1
  rw [List.length_append]
  omega

theorem unread_eq : unread redact log cursor limit =
    ((newest log cursor (limit + 1)).filter Line.fits).map (stamped redact) := by
  have hstamp : ∀ ls : List Line, (ls.filterMap (timestampedLogLine redact)).filter (fun l => cursor < l.1) =
      ((newer ls cursor).filter Line.fits).map (stamped redact) := by
    intro ls
    induction ls with
    | nil => rfl
    | cons l ls ih => grind [newer, timestampedLogLine, stamped]
  rw [unread, hstamp, newer_docker h]
  omega

end

/-! ## One call -/

theorem logs_eq (h : logs redact log cursor limit = some page) :
    page.cursor = cursor ∧ (page.truncated = true ↔ limit < (unread redact log cursor limit).length) ∧
      page.lines = (unread redact log cursor limit).drop ((unread redact log cursor limit).length - limit) ∧
      page.nextCursor = (page.lines.getLast?.map Prod.fst).getD cursor := by
  unfold logs at h
  split at h
  · cases h
  · cases h
    refine ⟨rfl, by simp, ?_, rfl⟩
    by_cases hlong : limit < (unread redact log cursor limit).length
    · simp [hlong]
    · simp [hlong, Nat.sub_eq_zero_of_le (Nat.le_of_not_lt hlong)]

theorem last_time (hpage : logs redact log cursor limit = some page) :
    (cursor :: page.times).getLast? = some page.nextCursor := by
  rw [List.getLast?_cons, Page.times, List.getLast?_map, (logs_eq hpage).2.2.2]

section
variable (h : log.Pairwise (·.time < ·.time)) (hpage : logs redact log cursor limit = some page)
include h hpage

theorem fits_of_exact (hexact : Exact redact ⟨log, limit⟩ page) (hl : l ∈ newer log cursor) : l.fits = true := by
  obtain ⟨hcursor, htruncated, hlines, -⟩ := logs_eq hpage
  have htexts := congrArg List.length hexact.lines
  have hmarked := hexact.truncated
  have hsorted : (newer log cursor).Pairwise (·.time < ·.time) := h.filter _
  rw [hcursor] at htexts hmarked
  rw [unread_eq h] at htruncated hlines
  unfold newest at *
  generalize newer log cursor = N at *
  by_contra hbad
  -- a line after one that does not fit does not fit either
  have hlost : ∃ l ∈ N.drop (N.length - (limit + 1)), ¬l.fits = true := by
    rw [← List.take_append_drop (N.length - (limit + 1)) N] at hl hsorted
    rcases List.mem_append.mp hl with hl | hl
    · obtain ⟨m, hm⟩ := List.exists_mem_of_length_pos (l := N.drop (N.length - (limit + 1))) (by
        have := List.length_pos_of_mem (List.mem_of_mem_take hl)
        rw [List.length_drop]
        omega)
      refine ⟨m, hm, ?_⟩
      have := (List.pairwise_append.mp hsorted).2.2 l hl m hm
      simp only [Line.fits, decide_eq_true_eq] at hbad ⊢
      omega
    · exact ⟨l, hl, hbad⟩
  have hshort := List.length_filter_lt_length_iff_exists.mpr hlost
  simp only [hlines, List.length_map, List.length_drop] at htexts htruncated hshort
  rw [htruncated] at hmarked
  dsimp only at htexts hmarked
  omega

variable (hfits : ∀ l ∈ newer log cursor, l.fits = true)
include hfits

theorem page_of_fits : (page.truncated = true ↔ limit < (newer log cursor).length) ∧
    page.lines = (newest log cursor limit).map (stamped redact) := by
  obtain ⟨-, htruncated, hlines, -⟩ := logs_eq hpage
  rw [unread_eq h, newest, List.filter_eq_self.mpr fun l hl => hfits l (List.mem_of_mem_drop hl)] at htruncated hlines
  rw [htruncated, hlines, ← List.map_drop, List.drop_drop]
  simp only [List.length_map, List.length_drop]
  refine ⟨by omega, ?_⟩
  unfold newest
  congr 2
  omega

theorem page_times : page.times = (newest log cursor limit).map (·.time.toNat) := by
  rw [Page.times, (page_of_fits h hpage hfits).2, List.map_map]
  rfl

theorem times_ordered : (cursor :: page.times).Pairwise (· < ·) := by
  have hnewer : ∀ l ∈ newest log cursor limit, (cursor : Int) < l.time := fun l hl =>
    (mem_newer.mp (List.mem_of_mem_drop hl)).2
  rw [page_times h hpage hfits]
  refine List.pairwise_cons.mpr ⟨?_, List.pairwise_map.mpr ((h.filter _).drop.imp_of_mem ?_)⟩
  · simp only [List.mem_map, forall_exists_index, and_imp, forall_apply_eq_imp_iff₂]
    intro l hl
    have := hnewer l hl
    omega
  · intro l m hl _ hlt
    have := hnewer l hl
    omega

theorem times_le {t : Nat} (ht : t ∈ cursor :: page.times) : t ≤ page.nextCursor := by
  obtain ⟨init, hinit⟩ := List.getLast?_eq_some_iff.mp (last_time hpage)
  have hordered := times_ordered h hpage hfits
  rw [hinit] at ht hordered
  rcases List.mem_append.mp ht with ht | ht
  · exact Nat.le_of_lt ((List.pairwise_append.mp hordered).2.2 t ht _ (by simp))
  · exact Nat.le_of_eq (List.mem_singleton.mp ht)

theorem next_eq : page.nextCursor = cursor ∨ ∃ l ∈ log, l.fits = true ∧ l.time = page.nextCursor := by
  refine (List.mem_cons.mp (List.mem_of_getLast? (last_time hpage))).imp_right fun hnext => ?_
  rw [page_times h hpage hfits] at hnext
  obtain ⟨l, hl, hnext⟩ := List.mem_map.mp hnext
  have hmem := mem_newer.mp (List.mem_of_mem_drop hl)
  exact ⟨l, hmem.1, hfits l (List.mem_of_mem_drop hl), by omega⟩

end

/-! ## Whole runs -/

theorem Growing.tail (h : Growing (call :: calls)) : Growing calls :=
  ⟨fun c hc => h.accepted c (.tail _ hc), fun c hc => h.ordered c (.tail _ hc), h.grows.of_cons⟩

theorem Growing.answers (h : Growing (call :: calls)) (redact) (cursor : Nat) : ∃ page,
    logs redact call.log cursor call.limit = some page ∧
      pages redact cursor (call :: calls) = (call, page) :: pages redact page.nextCursor calls := by
  have hpage : logs redact call.log cursor call.limit = some _ := if_neg (h.accepted call (.head _))
  exact ⟨_, hpage, by rw [pages, hpage]⟩

theorem fits_of_run (h : Growing calls) (hexact : ∀ x ∈ pages redact cursor calls, Exact redact x.1 x.2) :
    ∀ call ∈ calls, ∀ l ∈ newer call.log cursor, l.fits = true := by
  induction calls generalizing cursor with
  | nil => simp
  | cons first calls ih =>
    obtain ⟨page, hpage, hpages⟩ := h.answers redact cursor
    rw [hpages] at hexact
    have hsorted := h.ordered first (.head _)
    have hfirst : ∀ l ∈ newer first.log cursor, l.fits = true := fun l =>
      fits_of_exact hsorted hpage (hexact _ (.head _))
    refine List.forall_mem_cons.mpr ⟨hfirst, fun call hcall l hl => ?_⟩
    by_cases hlater : (page.nextCursor : Int) < l.time
    · exact ih h.tail (fun x hx => hexact x (.tail _ hx)) call hcall l (mem_newer.mpr ⟨(mem_newer.mp hl).1, hlater⟩)
    · have hlt := (mem_newer.mp hl).2
      rcases next_eq hsorted hpage hfirst with hnext | ⟨m, -, hm, hnext⟩
      · omega
      · simp only [Line.fits, decide_eq_true_eq] at hm ⊢
        omega

theorem lossless_of_fits (h : Growing calls) (hfits : ∀ call ∈ calls, ∀ l ∈ newer call.log cursor, l.fits = true) :
    Lossless redact cursor calls ∧ (cursor :: (pages redact cursor calls).flatMap (·.2.times)).Pairwise (· < ·) := by
  induction calls generalizing cursor with
  | nil => exact ⟨⟨by simp [pages], by simp [pages], by simp⟩, by simp [pages]⟩
  | cons first calls ih =>
    obtain ⟨page, hpage, hpages⟩ := h.answers redact cursor
    have hsorted := h.ordered first (.head _)
    have hfirst := hfits first (.head _)
    have hle := fun t => times_le hsorted hpage hfirst (t := t)
    have hnewer : ∀ call : Call, ∀ l ∈ newer call.log page.nextCursor, l ∈ newer call.log cursor := by
      intro call l hl
      have := hle cursor (.head _)
      rw [mem_newer] at hl ⊢
      exact ⟨hl.1, by omega⟩
    obtain ⟨hrest, hafter⟩ := ih h.tail fun call hcall l hl => hfits call (.tail _ hcall) l (hnewer call l hl)
    have honce : (cursor :: (pages redact cursor (first :: calls)).flatMap (·.2.times)).Pairwise (· < ·) := by
      rw [hpages, List.flatMap_cons, ← List.cons_append, List.pairwise_append]
      exact ⟨times_ordered hsorted hpage hfirst, hafter.of_cons, fun t ht t' ht' =>
        Nat.lt_of_le_of_lt (hle t ht) (List.rel_of_pairwise_cons hafter ht')⟩
    have htimes := page_times hsorted hpage hfirst
    obtain ⟨htruncated, hlines⟩ := page_of_fits hsorted hpage hfirst
    have hcursor := (logs_eq hpage).1
    have hkept : ∀ l ∈ newer first.log cursor, Accounted (pages redact cursor (first :: calls)) l := by
      intro l hl
      refine ⟨(first, page), hpages ▸ .head _, hcursor ▸ hl, ?_⟩
      by_cases hlong : first.limit < (newer first.log cursor).length
      · exact .inr (htruncated.mpr hlong)
      · left
        rw [htimes, newest, Nat.sub_eq_zero_of_le (Nat.le_of_not_lt hlong)]
        exact List.mem_map.mpr ⟨l, hl, rfl⟩
    refine ⟨⟨?_, honce.of_cons, List.forall_mem_cons.mpr ⟨hkept, fun call hcall l hl => ?_⟩⟩, honce⟩
    · rw [hpages]
      refine List.forall_mem_cons.mpr ⟨⟨?_, hcursor ▸ htruncated⟩, hrest.exact⟩
      rw [hlines, hcursor, List.map_map]
      rfl
    · obtain ⟨hl, hlt⟩ := mem_newer.mp hl
      by_cases hlater : (page.nextCursor : Int) < l.time
      · obtain ⟨x, hx, hx'⟩ := hrest.kept call hcall l (mem_newer.mpr ⟨hl, hlater⟩)
        exact ⟨x, hpages ▸ .tail _ hx, hx'⟩
      · -- a line up to the next cursor was there when the page was read
        obtain ⟨added, hadded⟩ := List.rel_of_pairwise_cons h.grows hcall
        have hall := h.ordered call (.tail _ hcall)
        rw [← hadded] at hl hall
        rcases List.mem_append.mp hl with hl | hl
        · exact hkept l (mem_newer.mpr ⟨hl, hlt⟩)
        · rcases next_eq hsorted hpage hfirst with hnext | ⟨m, hm, -, hnext⟩
          · omega
          · have := (List.pairwise_append.mp hall).2.2 m hm l hl
            omega

end

theorem paging_lossless_iff (s : Session) (cursor : Nat) :
    Lossless redact cursor s.calls ↔ ∀ call ∈ s.calls, ∀ l ∈ newer call.log cursor, l.fits = true :=
  ⟨fun h => fits_of_run s.growing h.exact, fun h => (lossless_of_fits s.growing h).1⟩

def lateLog : Session where
  calls := [⟨[⟨2 ^ 63, "ready"⟩], 1⟩]
  growing := ⟨by simp [maxEngineLogLines], by simp, by simp⟩

theorem late_line_lost : pages id 0 lateLog.calls = [(⟨[⟨2 ^ 63, "ready"⟩], 1⟩, ⟨0, 0, false, []⟩)] ∧
    ¬Lossless id 0 lateLog.calls := by
  have hpages : pages id 0 lateLog.calls = [(⟨[⟨2 ^ 63, "ready"⟩], 1⟩, ⟨0, 0, false, []⟩)] := rfl
  refine ⟨hpages, fun h => ?_⟩
  obtain ⟨x, hx, -, hfound⟩ := h.kept _ (.head _) ⟨2 ^ 63, "ready"⟩ (.head _)
  rw [hpages, List.mem_singleton] at hx
  subst x
  simp [Page.times] at hfound

end Sparkplane.Logs
