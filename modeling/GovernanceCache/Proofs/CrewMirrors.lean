import GovernanceCache.Proofs.Sources
import GovernanceCache.Proofs.TimelyPulls

/-!
# Mirrors kept by threads

A crew whose store keeps one table, as a mirror is a session with one. Rows are written at any time,
and a pull selects its rows while it waits for the store.

1. In a generation without untimely pulls the replica follows the source, so every merge leaves it
   with the image of the snapshot from which the pull selected.
2. An untimely pull can bring back, beside another first load, a row that was deleted in between.
-/

namespace GovernanceCache.Crew

variable {R ι : Type}

/-! ## Mirrors -/

/-- A crew whose store keeps one table, and what its threads did. -/
structure Mirror (R ι : Type) where
  crew : Crew R ι
  log : List (Deed R ι) := []
  source : Source R := {}

namespace Mirror

/-- The skew of the replica. -/
def skew (m : Mirror R ι) : Span := m.crew.refresher.replica.skew

/-- The pull of a call has not merged, and is of the current generation. -/
def Pulling (s : Crew R ι) (call : Nat) : Prop :=
  ∃ w ∈ s.posts, ∃ pull reply, w.open? = some (pull, reply) ∧ pull.call = call ∧
    pull.ticket.generation = s.refresher.replica.generation

/-- A thread merged a batch that answers for a snapshot, and left the replica with its image. -/
def Shows (o : Source R) [Record R] [Index R ι] (pull : Pull) (batch : List R)
    (into : Replica R ι) : Prop :=
  ∃ snapshot, o.selected pull.call = some snapshot ∧
    ∀ key : String, (into.mergeBatch pull.ticket batch).1.entries[key]? = snapshot.image key

section

variable [Record R] [Index R ι]

def start (kind : CacheKind) (skew : Span) (buffer : Nat) : Mirror R ι :=
  { crew := .start kind skew buffer }

/-- What happens to a mirror. -/
inductive Step (m : Mirror R ι) : Mirror R ι → Prop
  | write (source : Source R) (h : Source.Write m.skew m.source source) : Step m { m with source }
  | select (pull : Pull) (hp : .pulling pull ∈ m.crew.posts)
    (h : m.source.selected pull.call = none) :
    Step m { m with source := m.source.select pull.call }
  /-- A thread moves. A batch with which its pull is accepted is what the pull selected. -/
  | move (deed : Deed R ι) (crew : Crew R ι) (h : Crew.Step m.crew deed crew)
    (ha : ∀ pull batch, deed = .accepted pull batch →
      m.source.Answered pull.call pull.ticket batch) :
    Step m { m with crew, log := deed :: m.log }

/-- What can become of a mirror of a new table. -/
inductive Reached : Mirror R ι → Prop
  | start (kind : CacheKind) (skew : Span) (buffer : Nat) : Reached (start kind skew buffer)
  | step {m m' : Mirror R ι} : Reached m → Step m m' → Reached m'

/-- What holds of every mirror. -/
structure Faithful (m : Mirror R ι) : Prop where
  paced : Paced m.log m.crew
  lawful : m.source.Lawful m.skew
  /-- Nobody selected for a call that has no ticket. -/
  fresh : ∀ w ∈ m.crew.posts, ∀ call mark, w.entry? = some (call, mark) →
    m.source.selected call = none
  unborn : ∀ call, m.crew.refresher.flights.next ≤ call → m.source.selected call = none
  /-- A batch at hand answers for what its call selected from. -/
  answers : ∀ pull batch, .merging pull batch ∈ m.crew.posts →
    m.source.Answered pull.call pull.ticket batch
  follows : Punctual m.log →
    ∃ base, m.source.Follows m.crew.refresher.replica base (Pulling m.crew)
  shows : ∀ later pull batch into earlier, m.log = later ++ .merged pull batch into :: earlier →
    Punctual earlier → Shows m.source pull batch into

variable {m m' : Mirror R ι} {r' : Refresher R ι} {before after : List (Post R)}
  {p q : Option (Post R)} {deed : Deed R ι} {w : Post R} {call : Nat}

theorem skew_move (hm : Moves m.crew.refresher (before ++ after) p deed q r') :
    r'.replica.skew = m.skew :=
  hm.kind_skew.2

namespace Faithful

theorem write [LawfulRecord R] (h : Faithful m) {source : Source R}
    (hw : Source.Write m.skew m.source source) : Faithful { m with source } := by
  have hsel : source.selected = m.source.selected := (hw.present_eq h.lawful.sound).1
  refine ⟨h.paced, h.lawful.write hw, ?_, ?_, ?_, ?_, ?_⟩
  · exact fun w hmem call mark hentry => hsel ▸ h.fresh w hmem call mark hentry
  · exact fun call hle => hsel ▸ h.unborn call hle
  · intro pull batch hmem
    obtain ⟨snapshot, hs, hans⟩ := h.answers pull batch hmem
    exact ⟨snapshot, hsel ▸ hs, hans⟩
  · intro hp
    obtain ⟨base, hbase⟩ := h.follows hp
    exact ⟨base, hbase.write h.lawful.sound hw⟩
  · intro later pull batch into earlier hlog hp
    obtain ⟨snapshot, hs, himage⟩ := h.shows later pull batch into earlier hlog hp
    exact ⟨snapshot, hsel ▸ hs, himage⟩

theorem select (h : Faithful m) {pull : Pull} (hp : .pulling pull ∈ m.crew.posts)
    (hnone : m.source.selected pull.call = none) :
    Faithful { m with source := m.source.select pull.call } := by
  have hne : ∀ n, n ≠ pull.call → m.source.selected n = none →
      (m.source.select pull.call).selected n = none := by
    intro n hn hnone
    rw [Source.select_selected, if_neg hn]
    exact hnone
  obtain ⟨before, after, hsplit⟩ := List.append_of_mem hp
  have hled := h.paced.staffed
  refine ⟨h.paced, h.lawful.select pull.call, ?_, ?_, ?_, ?_, ?_⟩
  · intro w hmem call mark hentry
    refine hne call ?_ (h.fresh w hmem call mark hentry)
    -- a thread without a ticket is another one, with another call
    have hrest : w ∈ before ++ after := by
      rw [hsplit, List.append_cons, List.mem_append, List.mem_append, List.mem_singleton] at hmem
      rcases hmem with (hmem | rfl) | hmem
      · exact List.mem_append_left _ hmem
      · cases hentry
      · exact List.mem_append_right _ hmem
    exact hled.call_ne (p := some (.pulling pull)) (by rw [hsplit, List.append_cons]; rfl) rfl hrest
      (Post.lead?_of_entry hentry)
  · intro call hle
    refine hne call ?_ (h.unborn call hle)
    have hlt := hled.led.call_lt
      (List.mem_filterMap.mpr ⟨_, hp, rfl⟩ : (m.crew.refresher.key, pull.call) ∈ leads _ _)
    have hle : m.crew.refresher.flights.next ≤ call := hle
    omega
  · exact fun pull' batch hmem => (h.answers pull' batch hmem).select hnone
  · intro hp
    obtain ⟨base, hbase⟩ := h.follows hp
    exact ⟨base, hbase.select pull.call⟩
  · intro later pull' batch into earlier hlog hp
    obtain ⟨snapshot, hs, himage⟩ := h.shows later pull' batch into earlier hlog hp
    exact ⟨snapshot, Source.selected_select hnone hs, himage⟩

theorem fresh_move (h : Faithful m) (hp : m.crew.posts = before ++ p.toList ++ after)
    (hm : Moves m.crew.refresher (before ++ after) p deed q r') (hw : q = some w ∨ w ∈ before ++ after)
    {mark : Option Nat} (hentry : w.entry? = some (call, mark)) : m.source.selected call = none := by
  rcases hw with rfl | hw
  · cases hm with
    | lead flights call' hl =>
      cases hentry
      exact h.unborn _ (Nat.le_of_eq (SingleFlight.of_enter_leader hl).2.2.symm)
    | proceed call' mark' =>
      exact h.fresh (.registered call' mark') (hp ▸ mem_split.mpr (.inl rfl)) call mark hentry
    | _ => cases hentry
  · exact h.fresh w (hp ▸ mem_split.mpr (.inr hw)) call mark hentry

theorem answers_move (h : Faithful m) (hp : m.crew.posts = before ++ p.toList ++ after)
    (hm : Moves m.crew.refresher (before ++ after) p deed q r') {pull : Pull} {batch : List R}
    (ha : ∀ pull batch, deed = .accepted pull batch →
      m.source.Answered pull.call pull.ticket batch)
    (hw : q = some (.merging pull batch) ∨ .merging pull batch ∈ before ++ after) :
    m.source.Answered pull.call pull.ticket batch := by
  rcases hw with rfl | hw
  · cases hm with
    | accept pull batch => exact ha pull batch rfl
  · exact h.answers pull batch (hp ▸ mem_split.mpr (.inr hw))

/-- A pull that has not merged goes on, or it has just taken its ticket. -/
theorem pulling_move (h : Faithful m) (hp : m.crew.posts = before ++ p.toList ++ after)
    (hm : Moves m.crew.refresher (before ++ after) p deed q r') (hreset : deed.isReset = false)
    (hpull : Pulling { refresher := r', posts := before ++ q.toList ++ after } call) :
    Pulling m.crew call ∨ m.source.selected call = none := by
  obtain ⟨w, hw, pull, reply, hopen, rfl, hgen⟩ := hpull
  have hgen : pull.ticket.generation = m.crew.refresher.replica.generation :=
    hgen.trans (hm.generation hreset)
  rcases mem_split.mp hw with rfl | hw
  · cases hm with
    | ask call mark now =>
      cases hopen
      exact .inr (h.fresh (.admitted call mark) (hp ▸ mem_split.mpr (.inl rfl)) call mark rfl)
    | accept pull batch =>
      cases hopen
      exact .inl ⟨.pulling pull, hp ▸ mem_split.mpr (.inl rfl), pull, none, rfl, rfl, hgen⟩
    | _ => cases hopen
  · exact .inl ⟨w, hp ▸ mem_split.mpr (.inr hw), pull, reply, hopen, rfl, hgen⟩

/-- A pull that merges leaves the replica with the snapshot from which it selected. -/
theorem follows_of_merged (h : Faithful m) (hpunctual : Punctual m.log) {pull : Pull}
    {batch : List R} (hp : m.crew.posts = before ++ (some (.merging pull batch)).toList ++ after)
    (changes : List (Change R)) :
    ∃ snapshot, m.source.selected pull.call = some snapshot ∧
      m.source.Follows (m.crew.refresher.replica.mergeBatch pull.ticket batch).1 snapshot
        (Pulling
          { refresher :=
              { m.crew.refresher with
                replica := (m.crew.refresher.replica.mergeBatch pull.ticket batch).1 }
            posts := before ++ (some (.merged pull changes)).toList ++ after }) := by
  have hmem : .merging pull batch ∈ m.crew.posts := hp ▸ mem_split.mpr (.inl rfl)
  have hgen := h.paced.held pull batch hmem
  obtain ⟨snapshot, hsel, hans⟩ := h.answers pull batch hmem
  obtain ⟨base, hbase⟩ := h.follows hpunctual
  obtain ⟨hsince, hfirst⟩ := h.paced.ticket_eq hpunctual hmem rfl hgen
  rw [hsince, hfirst] at hans
  refine ⟨snapshot, hsel, hbase.merge h.lawful ⟨_, hmem, pull, _, rfl, rfl, hgen⟩ hsel pull.ticket
    hans ?_⟩
  rintro n ⟨w, hw, pull', reply, hopen, -, hgen'⟩
  have hw : w ∈ before ++ after := by
    rcases mem_split.mp hw with heq | hw
    · cases heq
      cases hopen
    · exact hw
  -- another pull of the generation would run beside this one
  have halone := h.paced.alone hpunctual
  rw [hp, countP_split] at halone
  have hone : (some (Post.merging pull batch)).toList.countP
      (Post.pullsIn m.crew.refresher.replica.generation) = 1 :=
    List.countP_cons_of_pos ((Option.any_eq_true _ _).mpr ⟨pull, rfl, beq_iff_eq.mpr hgen⟩)
  have hnone := List.countP_eq_zero.mp (by omega : (before ++ after).countP
    (Post.pullsIn m.crew.refresher.replica.generation) = 0) w hw
  exact hnone ((Option.any_eq_true _ _).mpr ⟨pull', Post.pull?_of_open hopen, beq_iff_eq.mpr hgen'⟩)

theorem follows_move (h : Faithful m) (hp : m.crew.posts = before ++ p.toList ++ after)
    (hm : Moves m.crew.refresher (before ++ after) p deed q r')
    (hpunctual : Punctual (deed :: m.log)) :
    ∃ base, m.source.Follows r'.replica base
      (Pulling { refresher := r', posts := before ++ q.toList ++ after }) := by
  rcases hreset : deed.isReset with _ | _
  · have hwas := hpunctual.tail hreset
    rcases hmerge : deed.isMerge with _ | _
    · obtain ⟨base, hbase⟩ := h.follows hwas
      exact ⟨base, hbase.alike (hm.alike hmerge hreset) fun _ => h.pulling_move hp hm hreset⟩
    · cases hm with
      | merge pull batch =>
        obtain ⟨snapshot, -, hbase⟩ := h.follows_of_merged hwas hp _
        exact ⟨snapshot, hbase⟩
      | _ => cases hmerge
  · cases hm with
    | reset hu => exact ⟨{}, .reset m.source m.crew.refresher.replica _⟩
    | _ => cases hreset

theorem shows_move (h : Faithful m) (hp : m.crew.posts = before ++ p.toList ++ after)
    (hm : Moves m.crew.refresher (before ++ after) p deed q r') {later earlier : List (Deed R ι)}
    {pull : Pull} {batch : List R} {into : Replica R ι}
    (hlog : deed :: m.log = later ++ .merged pull batch into :: earlier)
    (hpunctual : Punctual earlier) : Shows m.source pull batch into := by
  rcases List.cons_eq_append_iff.mp hlog with ⟨rfl, heq⟩ | ⟨rest, rfl, heq⟩
  · cases heq
    cases hm with
    | merge pull batch =>
      obtain ⟨snapshot, hsel, hbase⟩ := h.follows_of_merged hpunctual hp []
      exact ⟨snapshot, hsel, hbase.pictures.entries⟩
  · exact h.shows rest pull batch into earlier heq hpunctual

theorem move (h : Faithful m) {crew : Crew R ι} (hs : Crew.Step m.crew deed crew)
    (ha : ∀ pull batch, deed = .accepted pull batch →
      m.source.Answered pull.call pull.ticket batch) :
    Faithful { m with crew, log := deed :: m.log } := by
  have hpaced := h.paced.step hs
  cases hs with
  | move before after p q deed r' hp hm =>
    refine ⟨hpaced, ?_, ?_, ?_, ?_, h.follows_move hp hm, ?_⟩
    · show m.source.Lawful r'.replica.skew
      rw [skew_move hm]
      exact h.lawful
    · exact fun w hw call mark hentry => h.fresh_move hp hm (mem_split.mp hw) hentry
    · exact fun call hle => h.unborn call (Nat.le_trans hm.next_le hle)
    · exact fun pull batch hmem => h.answers_move hp hm ha (mem_split.mp hmem)
    · exact fun later pull batch into earlier hlog => h.shows_move hp hm hlog

theorem start (kind : CacheKind) (skew : Span) (buffer : Nat) :
    Faithful (start kind skew buffer : Mirror R ι) where
  paced := .start kind skew buffer
  lawful := .start _
  fresh w hw := by cases hw
  unborn _ _ := rfl
  answers pull batch hw := by cases hw
  follows _ := by
    refine ⟨{}, .empty, .of_empty _ _, ⟨?_, Or.inl rfl, fun _ => rfl⟩, fun _ _ _ h => by cases h⟩
    intro key
    simp [Mirror.start, Crew.start, Replica.create, Snapshot.image]
  shows later pull batch into earlier hlog := by simp [Mirror.start] at hlog

theorem step [LawfulRecord R] (h : Faithful m) (hs : Step m m') : Faithful m' := by
  cases hs with
  | write source hw => exact h.write hw
  | select pull hp hnone => exact h.select hp hnone
  | move deed crew hs ha => exact h.move hs ha

end Faithful

theorem Reached.faithful [LawfulRecord R] (h : Reached m) : Faithful m := by
  induction h with
  | start kind skew buffer => exact .start kind skew buffer
  | step _ hs ih => exact ih.step hs

end

/-! ## A row that is deleted -/

/-- The threads move for a while, and no batch is accepted. -/
theorem Reached.run [Record R] [Index R ι] {m : Mirror R ι} (h : Reached m)
    {log : List (Deed R ι)} {s : Crew R ι} (hs : Steps m.crew log s)
    (ha : ∀ pull batch, .accepted pull batch ∉ log) :
    Reached { m with crew := s, log := log ++ m.log } := by
  induction hs with
  | refl => exact h
  | step _ hstep ih =>
    have hwas := ih fun pull batch hmem => ha pull batch (List.mem_cons_of_mem _ hmem)
    exact hwas.step (.move _ _ hstep fun pull batch heq =>
      absurd (heq ▸ List.mem_cons_self) (ha pull batch))

namespace ShortLived

/-- A row that is written, and later deleted. -/
def row : Namespace :=
  { name := "a"
    modified := { Instant.epoch with second := 7, second_ge := by decide, second_le := by decide } }

def deletion : Instant :=
  { Instant.epoch with second := 8, second_ge := by decide, second_le := by decide }

/-- The table that holds it. -/
def table : Table Namespace := ({} : Table Namespace).put row

theorem admissible : Admissible (.seconds (-5)) [] row :=
  ⟨by decide, by decide, fun _ he => (nomatch he), fun _ he => (nomatch he)⟩

theorem buried_admissible :
    Admissible (.seconds (-5)) [row] (Table.buried deletion row) := by
  refine ⟨by decide, by decide, ?_, ?_⟩
  · intro e he
    rw [List.mem_singleton.mp he]
    decide
  · intro e he _ hsame
    rw [List.mem_singleton.mp he] at hsame
    exact absurd hsame (by decide)

theorem held : table.rows["a"]? = some row := Std.ExtTreeMap.getElem?_insert_self

/-- A first load is told of the row as long as it lives. -/
theorem answers : Answers table.rows .epoch true [row] := by
  have hselect : table.select .epoch true = [row] := List.mergeSort_singleton _
  rw [← hselect]
  exact Table.select_answers _ (Keyed.empty.insert row) .epoch true

/-- Of the deleted row it is not told. -/
theorem answers_deleted : Answers (table.delete "a" deletion).1.rows .epoch true [] := by
  refine ⟨fun _ he => (nomatch he), fun key r hr _ => .inr ⟨rfl, ?_⟩⟩
  rw [Table.delete_rows _ (Keyed.empty.insert row) deletion held rfl] at hr
  unfold table Table.put at hr
  rw [getElem?_insert_eq, getElem?_insert_eq] at hr
  split at hr
  · rw [← Option.some.inj hr]
    rfl
  · rename_i hne
    rw [if_neg (show ¬ Record.key row = key from hne)] at hr
    simp at hr

theorem image_deleted (written : List Namespace) :
    ({ rows := (table.delete "a" deletion).1.rows, written } : Snapshot Namespace).image "a" =
      none := by
  unfold Snapshot.image
  rw [Table.delete_rows _ (Keyed.empty.insert row) deletion held rfl]
  unfold Table.put
  rw [getElem?_insert_eq, if_pos (show Record.key (Table.buried deletion row) = "a" from rfl)]
  rfl

/-- A replica that was told of it, and of nothing later, holds it. -/
theorem merged : (merge (merge (∅ : Std.ExtTreeMap String Namespace) [row]).entries []).entries["a"]? =
    some row := by
  rw [merge_getElem?, show newestFor "a" ([] : List Namespace) = none from rfl, merge_getElem?,
    show newestFor "a" [row] = some row from rfl, Std.ExtTreeMap.getElem?_empty]
  rfl

end ShortLived

/-! ## Merges -/

/-- **Merges of threads miss nothing.** In a generation without untimely pulls, whenever a thread
merges the batch of its pull, the entries of the replica are then the live rows that the table held
when the pull selected, no more and no fewer. -/
theorem merge_misses_nothing [Record R] [Index R ι] [LawfulRecord R] {m : Mirror R ι}
    (h : Reached m) {later earlier : List (Deed R ι)} {pull : Pull} {batch : List R}
    {into : Replica R ι} (hlog : m.log = later ++ .merged pull batch into :: earlier)
    (hpunctual : Punctual earlier) :
    Shows m.source pull batch into :=
  h.faithful.shows later pull batch into earlier hlog hpunctual

/-- A row that is deleted after the pull selected is left to the next one. -/
theorem merge_beside_delete : ∃ (m : Mirror Namespace Exports) (pull : Pull)
    (into : Replica Namespace Exports), Reached m ∧ .merged pull [ShortLived.row] into ∈ m.log ∧
      m.source.present.image "a" = none ∧ Shows m.source pull [ShortLived.row] into := by
  have hcrew : Steps (Crew.start .namespaces (.seconds (-5)) 4 : Crew Namespace Exports) [] _ :=
    .refl
  have hled := hcrew.step (.move [] [] none _ _ _ rfl (.lead _ 0 rfl))
  have hadmitted := hled.step (.move [] [] (some _) _ _ _ rfl (.proceed 0 _ rfl))
  have hasked := hadmitted.step (.move [] [] (some _) _ _ _ rfl (.ask 0 _ .epoch (by decide)))
  have h₀ : Reached (start .namespaces (.seconds (-5)) 4 : Mirror Namespace Exports) :=
    .start _ _ _
  have h₁ := (h₀.step (.write _ (.put ShortLived.row ShortLived.admissible))).run hasked (by simp)
  have h₂ := h₁.step (.select _ (.head _) rfl)
  have h₃ := h₂.step (.write _ (.delete "a" ShortLived.deletion ShortLived.row ShortLived.held rfl
    ShortLived.buried_admissible))
  have h₄ := h₃.step (.move _ _ (.move [] [] (some _) _ _ _ rfl
    (.accept _ [ShortLived.row] rfl (by decide))) fun _ _ heq => by
      cases heq
      exact ⟨_, rfl, ShortLived.answers⟩)
  have h₅ := h₄.step (.move _ _ (.move [] [] (some _) _ _ _ rfl (.merge _ _))
    fun _ _ heq => (nomatch heq))
  exact ⟨_, _, _, h₅, .head _, ShortLived.image_deleted _,
    merge_misses_nothing h₅ (show _ = [] ++ _ :: _ from rfl) (.of_forall (by decide))⟩

/-- Of two pulls that both make a first load, the first one merges a row, which is deleted before the
second one selects. So the second one is not told of the row, which stays. -/
theorem deleted_row_stays : ¬ ∀ m : Mirror Namespace Exports, Reached m →
    ∀ (later earlier : List (Deed Namespace Exports)) (pull : Pull) (batch : List Namespace)
      (into : Replica Namespace Exports), m.log = later ++ .merged pull batch into :: earlier →
        Shows m.source pull batch into := by
  intro hall
  obtain ⟨log, s, p, p', hsteps, hnone, hloads⟩ := two_first_loads
  have hfree : ∀ w : Post Namespace, w.isMerging = false → Unlocked [w] := by
    intro w hw v hv
    rw [List.mem_singleton.mp hv]
    exact hw
  have h₀ : Reached (start .namespaces (.seconds (-5)) 4 : Mirror Namespace Exports) :=
    .start _ _ _
  have h₁ := (h₀.step (.write _ (.put ShortLived.row ShortLived.admissible))).run hsteps hnone
  -- the first pull selects the row, and merges it
  have h₂ := h₁.step (.select p (hloads.posts ▸ .head _) rfl)
  have hverdict : s.refresher.replica.verdict p.ticket (.ok [ShortLived.row]) =
      .ok [ShortLived.row] :=
    Replica.verdict_eq_ok.mpr ⟨rfl, rfl, hloads.unbarred, hloads.generation.symm⟩
  have h₃ := h₂.step (.move _ _ (.move [] [.pulling p'] (some _) _ _ _ hloads.posts
    (.accept p [ShortLived.row] hverdict (hfree _ rfl))) fun _ _ heq => by
      cases heq
      refine ⟨_, (Source.select_selected _ _ _).trans (if_pos rfl), ?_⟩
      rw [hloads.since, hloads.firstLoad]
      exact ShortLived.answers)
  have h₄ := h₃.step (.move _ _ (.move [] [.pulling p'] (some _) _ _ _ rfl (.merge _ _))
    fun _ _ heq => (nomatch heq))
  -- the row is deleted, the second pull selects, and merges nothing
  have h₅ := h₄.step (.write _ (.delete "a" ShortLived.deletion ShortLived.row ShortLived.held rfl
    (hloads.skew ▸ ShortLived.buried_admissible)))
  have h₆ := h₅.step (.select p' (.tail _ (.head _)) (if_neg hloads.calls))
  have hverdict' : (s.refresher.replica.mergeBatch p.ticket [ShortLived.row]).1.verdict p'.ticket
      (.ok []) = .ok [] :=
    Replica.verdict_eq_ok.mpr ⟨rfl, rfl, hloads.unbarred, by
      rw [hloads.tickets]
      exact hloads.generation.symm⟩
  have h₇ := h₆.step (.move _ _ (.move [_] [] (some (.pulling p')) _ _ _ rfl
    (.accept p' [] hverdict' (hfree _ rfl))) fun _ _ heq => by
      cases heq
      refine ⟨_, (Source.select_selected _ _ _).trans (if_pos rfl), ?_⟩
      rw [hloads.tickets, hloads.since, hloads.firstLoad]
      exact ShortLived.answers_deleted)
  have h₈ := h₇.step (.move _ _ (.move [_] [] (some (.merging p' [])) _ _ _ rfl (.merge _ _))
    fun _ _ heq => (nomatch heq))
  obtain ⟨snapshot, hsel, himage⟩ := hall _ h₈ [] _ _ _ _ rfl
  obtain rfl := Option.some.inj
    (hsel.symm.trans ((Source.select_selected _ p'.call p'.call).trans (if_pos rfl)))
  have hshown := (himage "a").trans (ShortLived.image_deleted _)
  have hkept := ShortLived.merged
  rw [← hloads.empty] at hkept
  exact nomatch hkept.symm.trans hshown

end Mirror

end GovernanceCache.Crew
