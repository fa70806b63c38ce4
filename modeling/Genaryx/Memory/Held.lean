import Genaryx.Base.Items
import Genaryx.Memory.Pool

/-!
# What a pool holds

After each call a pool holds the servers of the scopes that were read last: of those read
successfully and not too long ago the newest, as many as fit. This is an invariant of the pool
and the calls it served, with the entries in the order of their last reads.
-/

namespace Genaryx.Memory

open Base Recency

variable {C E : Type}

/-- One call of a pool. -/
structure Call (C E : Type) where
  scope : Text
  now : Nat
  spawn : Except E C

/-- A call and how it ended. -/
structure Served (C E : Type) where
  call : Call C E
  outcome : Outcome C E

/-- A successful read of a scope. -/
structure Read (C : Type) where
  scope : Text
  client : C
  time : Nat

/-- The last read of an entry's scope. -/
def Entry.read (e : Entry C) : Read C := ⟨e.scope, e.client, e.lastUsed⟩

def Served.read? (s : Served C E) : Option (Read C) :=
  match s.outcome.result with
  | .ok client => some ⟨s.call.scope, client, s.call.now⟩
  | .error _ => none

/-- The successful reads among some calls. -/
def readsOf (served : List (Served C E)) : List (Read C) := served.filterMap Served.read?

/-- The server that a call started. -/
def Served.started? (s : Served C E) : Option C :=
  if s.outcome.spawned then s.outcome.result.toOption else none

/-- The server that was started last for a scope. -/
def lastStarted (scope : Text) (served : List (Served C E)) : Option C :=
  (served.filter fun s => s.call.scope = scope).reverse.findSome? Served.started?

/-- A pool that serves one call after another. -/
def serve (p : ScopePool C) : List (Call C E) → ScopePool C × List (Served C E)
  | [] => (p, [])
  | c :: rest =>
      let (outcome, next) := p.clientFor c.scope c.now c.spawn
      let (last, served) := serve next rest
      (last, ⟨c, outcome⟩ :: served)

/-- The newest reads that a pool has room for, of those that are not too long ago. -/
def newestLive (p : ScopePool C) (now : Nat) (reads : List (Read C)) : List (Read C) :=
  ((newestFirst Read.scope reads).filter fun r => ScopePool.live p.idle now r.time).take p.max

section Step

variable {p : ScopePool C} {scope : Text} {now : Nat} {spawn : Except E C}

/-- What a call does: it reads a server that is held, or one does not start, or one does. -/
theorem clientFor_cases (p : ScopePool C) (scope : Text) (now : Nat) (spawn : Except E C) :
    (∃ a e b, (p.closeIdle now).entries = a ++ e :: b ∧ e.scope = scope ∧
      p.clientFor scope now spawn = (⟨.ok e.client, false⟩,
        { p.closeIdle now with
          entries := a ++ { e with lastUsed := now, seq := p.nextSeq + 1 } :: b
          nextSeq := p.nextSeq + 1 })) ∨
    (∀ e ∈ (p.closeIdle now).entries, e.scope ≠ scope) ∧
      ((∃ err, spawn = .error err ∧ p.clientFor scope now spawn =
        (⟨.error err, true⟩, { p.closeIdle now with nextSeq := p.nextSeq + 1 })) ∨
      ∃ client, spawn = .ok client ∧ p.clientFor scope now spawn = (⟨.ok client, true⟩,
        { p.closeIdle now with
          entries := makeRoom p.max (p.closeIdle now).entries.length (p.closeIdle now).entries ++
            [⟨scope, client, now, p.nextSeq + 1⟩]
          nextSeq := p.nextSeq + 1 })) := by
  unfold ScopePool.clientFor
  dsimp only
  cases hread : readFirst scope now ((p.closeIdle now).nextSeq + 1) (p.closeIdle now).entries with
  | some read =>
      obtain ⟨client, entries⟩ := read
      obtain ⟨a, e, b, hentries, hscope, rfl, rfl⟩ := readFirst_eq_some hread
      exact Or.inl ⟨a, e, b, hentries, hscope, rfl⟩
  | none =>
      refine Or.inr ⟨readFirst_eq_none.mp hread, ?_⟩
      cases spawn with
      | error err => exact Or.inl ⟨err, rfl, rfl⟩
      | ok client => exact Or.inr ⟨client, rfl, rfl⟩

end Step

/-- The entries of a pool are the newest live reads, in the order in which they were made. -/
structure Tracks (p : ScopePool C) (reads : List (Read C)) (now : Nat) : Prop where
  listed : ∃ es : List (Entry C), es.Perm p.entries ∧ (es.Pairwise fun a b => b.seq < a.seq) ∧
    (∀ e ∈ es, e.seq ≤ p.nextSeq) ∧ es.map Entry.read = newestLive p now reads
  timed : reads.Pairwise fun a b => a.time ≤ b.time
  le_now : ∀ r ∈ reads, r.time ≤ now

section Tracks

variable {p : ScopePool C} {reads : List (Read C)} {now then' : Nat}

theorem live_of_le {idle a b : Nat} (h : b ≤ a) (hb : ScopePool.live idle now b = true) :
    ScopePool.live idle now a = true := by
  rw [ScopePool.live, decide_eq_true_eq] at hb ⊢
  omega

theorem live_before {idle t : Nat} (h : then' ≤ now) (hlive : ScopePool.live idle now t = true) :
    ScopePool.live idle then' t = true := by
  rw [ScopePool.live, decide_eq_true_eq] at hlive ⊢
  omega

/-- Of two reads the newer one stays live for longer. -/
theorem pairwise_live (htimed : reads.Pairwise fun a b => a.time ≤ b.time) (idle now : Nat) :
    (newestFirst Read.scope reads).Pairwise fun a b =>
      ScopePool.live idle now b.time = true → ScopePool.live idle now a.time = true :=
  (pairwise_newestFirst htimed).imp fun h => live_of_le h

/-- Closing the idle servers leaves the newest reads that are live by then. -/
theorem Tracks.closeIdle (h : Tracks p reads then') (hle : then' ≤ now) :
    Tracks (p.closeIdle now) reads now := by
  obtain ⟨es, hperm, hseq, hbound, hreads⟩ := h.listed
  refine ⟨⟨es.filter fun e => ScopePool.live p.idle now e.lastUsed, hperm.filter _, hseq.filter _,
    fun e he => hbound e (List.mem_filter.mp he).1, ?_⟩, h.timed,
    fun r hr => (h.le_now r hr).trans hle⟩
  have hmap : (es.filter fun e => ScopePool.live p.idle now e.lastUsed).map Entry.read =
      (es.map Entry.read).filter fun r => ScopePool.live p.idle now r.time := by
    rw [List.filter_map]
    rfl
  have hboth : ((newestFirst Read.scope reads).filter fun r =>
      ScopePool.live p.idle then' r.time).filter (fun r => ScopePool.live p.idle now r.time) =
        (newestFirst Read.scope reads).filter fun r => ScopePool.live p.idle now r.time := by
    rw [List.filter_filter]
    refine List.filter_congr fun r _ => ?_
    cases hlive : ScopePool.live p.idle now r.time with
    | false => rfl
    | true => exact live_before hle hlive
  rw [hmap, hreads, newestLive, filter_take ((pairwise_live h.timed p.idle now).filter _), hboth]
  rfl

/-- A read now comes after all reads. -/
theorem Tracks.timed_concat (h : Tracks p reads now) (scope : Text) (client : C) :
    (reads ++ [(⟨scope, client, now⟩ : Read C)]).Pairwise fun a b => a.time ≤ b.time := by
  refine List.pairwise_append.mpr ⟨h.timed, List.pairwise_singleton _ _, fun r hr r' hr' => ?_⟩
  rw [List.mem_singleton.mp hr']
  exact h.le_now r hr

theorem Tracks.le_now_concat (h : Tracks p reads now) (scope : Text) (client : C) :
    ∀ r ∈ reads ++ [(⟨scope, client, now⟩ : Read C)], r.time ≤ now := by
  intro r hr
  rcases List.mem_append.mp hr with hr | hr
  · exact h.le_now r hr
  · rw [List.mem_singleton.mp hr]

theorem live_now (idle now : Nat) : ScopePool.live idle now now = true := by
  rw [ScopePool.live, Nat.sub_self]
  exact decide_eq_true (Nat.zero_le idle)

/-- A read now comes to the front of the live reads. -/
theorem filter_live_concat (idle : Nat) (reads : List (Read C)) (scope : Text) (client : C) :
    (newestFirst Read.scope (reads ++ [⟨scope, client, now⟩])).filter
        (fun r => ScopePool.live idle now r.time) =
      toFront Read.scope ⟨scope, client, now⟩ ((newestFirst Read.scope reads).filter
        fun r => ScopePool.live idle now r.time) := by
  rw [newestFirst_concat]
  exact filter_toFront (live_now idle now)

/-- No scope is held twice. -/
theorem Tracks.nodup_scopes (h : Tracks p reads now) : (p.entries.map Entry.scope).Nodup := by
  obtain ⟨es, hperm, -, -, hreads⟩ := h.listed
  have hscopes : es.map Entry.scope = (newestLive p now reads).map Read.scope := by
    rw [← hreads, List.map_map]
    rfl
  rw [← (hperm.map Entry.scope).nodup_iff, hscopes]
  exact ((List.take_sublist _ _).trans List.filter_sublist |>.map Read.scope).nodup
    (nodup_map_newestFirst reads)

/-- A read of a server that is held. -/
theorem Tracks.reuse (h : Tracks p reads now) {a b : List (Entry C)} {e : Entry C}
    (hentries : p.entries = a ++ e :: b) :
    Tracks { p with
      entries := a ++ { e with lastUsed := now, seq := p.nextSeq + 1 } :: b
      nextSeq := p.nextSeq + 1 } (reads ++ [⟨e.scope, e.client, now⟩]) now := by
  obtain ⟨es, hperm, hseq, hbound, hreads⟩ := h.listed
  have hnodup := h.nodup_scopes
  rw [hentries, List.map_append, List.map_cons] at hnodup
  have hothers : ∀ x ∈ a ++ b, x.scope ≠ e.scope := by
    intro x hx heq
    have hcons := (List.perm_middle.nodup_iff.mp hnodup)
    refine (List.nodup_cons.mp hcons).1 ?_
    rw [← List.map_append, ← heq]
    exact List.mem_map_of_mem hx
  have hrest : (es.filter fun x => x.scope ≠ e.scope).Perm (a ++ b) := by
    have hfilter := (hperm.trans (hentries ▸ List.perm_middle)).filter
      fun x : Entry C => decide (x.scope ≠ e.scope)
    rwa [List.filter_cons_of_neg (by simp), List.filter_eq_self.mpr fun x hx =>
      decide_eq_true (hothers x hx)] at hfilter
  refine ⟨⟨{ e with lastUsed := now, seq := p.nextSeq + 1 } ::
    es.filter fun x => x.scope ≠ e.scope, ?_, ?_, ?_, ?_⟩, h.timed_concat _ _,
    h.le_now_concat _ _⟩
  · exact (hrest.cons _).trans List.perm_middle.symm
  · refine List.pairwise_cons.mpr ⟨fun x hx => ?_, hseq.filter _⟩
    exact Nat.lt_succ_of_le (hbound x (List.mem_filter.mp hx).1)
  · intro x hx
    rcases List.mem_cons.mp hx with rfl | hx
    · exact le_rfl
    · exact (hbound x (List.mem_filter.mp hx).1).trans (Nat.le_succ _)
  · have hmap : (es.filter fun x => x.scope ≠ e.scope).map Entry.read =
        (newestLive p now reads).filter fun r => r.scope ≠ e.scope := by
      rw [← hreads, List.filter_map]
      rfl
    have hmem : e.read ∈ newestLive p now reads := by
      rw [← hreads]
      refine List.mem_map_of_mem (hperm.mem_iff.mpr ?_)
      rw [hentries]
      exact List.mem_append_right _ List.mem_cons_self
    have hkeys : (((newestFirst Read.scope reads).filter fun r =>
        ScopePool.live p.idle now r.time).map Read.scope).Nodup :=
      (List.filter_sublist.map Read.scope).nodup (nodup_map_newestFirst reads)
    rw [List.map_cons, hmap, newestLive, newestLive, filter_live_concat]
    exact (take_toFront_of_mem (x := ⟨e.scope, e.client, now⟩) hkeys hmem rfl).symm

/-- A server that is started takes the place of the least recently read one. -/
theorem Tracks.start (h : Tracks p reads now) {scope : Text}
    (hnew : ∀ e ∈ p.entries, e.scope ≠ scope) (client : C) :
    Tracks { p with
      entries := makeRoom p.max p.entries.length p.entries ++ [⟨scope, client, now, p.nextSeq + 1⟩]
      nextSeq := p.nextSeq + 1 } (reads ++ [⟨scope, client, now⟩]) now := by
  obtain ⟨es, hperm, hseq, hbound, hreads⟩ := h.listed
  have hlength : es.length ≤ p.max := by
    rw [← List.length_map (f := Entry.read), hreads, newestLive]
    exact List.length_take_le _ _
  have hroom := makeRoom_perm hperm.symm hseq hlength p.max_pos
  refine ⟨⟨⟨scope, client, now, p.nextSeq + 1⟩ :: es.take (p.max - 1), ?_, ?_, ?_, ?_⟩,
    h.timed_concat _ _, h.le_now_concat _ _⟩
  · exact (hroom.symm.cons _).trans (List.perm_append_singleton _ _).symm
  · refine List.pairwise_cons.mpr ⟨fun x hx => ?_, hseq.sublist (List.take_sublist _ _)⟩
    exact Nat.lt_succ_of_le (hbound x (List.mem_of_mem_take hx))
  · intro x hx
    rcases List.mem_cons.mp hx with rfl | hx
    · exact le_rfl
    · exact (hbound x (List.mem_of_mem_take hx)).trans (Nat.le_succ _)
  · have hnone : ∀ r ∈ newestLive p now reads, r.scope ≠ scope := by
      intro r hr
      rw [← hreads] at hr
      obtain ⟨e, he, rfl⟩ := List.mem_map.mp hr
      exact hnew e (hperm.mem_iff.mp he)
    rw [List.map_cons, List.map_take, hreads, newestLive, newestLive, filter_live_concat,
      List.take_take, Nat.min_eq_left (Nat.sub_le _ _)]
    exact (take_toFront_of_notMem (x := (⟨scope, client, now⟩ : Read C)) hnone p.max_pos).symm

end Tracks

section Runs

/-- The entries of a pool are the servers that were started last for their scopes. -/
def HoldsStarted (p : ScopePool C) (served : List (Served C E)) : Prop :=
  ∀ e ∈ p.entries, lastStarted e.scope served = some e.client

variable {p : ScopePool C} {served : List (Served C E)}

theorem lastStarted_concat (scope : Text) (served : List (Served C E)) (s : Served C E) :
    lastStarted scope (served ++ [s]) =
      if s.call.scope = scope then s.started?.or (lastStarted scope served)
      else lastStarted scope served := by
  rw [lastStarted, List.filter_append]
  by_cases h : s.call.scope = scope
  · have hone : [s].filter (fun s => s.call.scope = scope) = [s] := by simp [h]
    rw [if_pos h, hone, List.reverse_append, List.reverse_singleton, List.singleton_append,
      List.findSome?_cons]
    cases s.started? <;> rfl
  · have hnone : [s].filter (fun s => s.call.scope = scope) = [] := by simp [h]
    rw [if_neg h, hnone, List.append_nil, lastStarted]

theorem closeIdle_entries_subset (p : ScopePool C) (now : Nat) :
    (p.closeIdle now).entries ⊆ p.entries := fun _ he => (List.mem_filter.mp he).1

/-- A call as a pool serves it. -/
def servedBy (p : ScopePool C) (c : Call C E) : Served C E :=
  ⟨c, (p.clientFor c.scope c.now c.spawn).1⟩

/-- What a call makes of the reads. -/
theorem Tracks.clientFor {reads : List (Read C)} {now : Nat} (h : Tracks p reads now)
    {c : Call C E} (hle : now ≤ c.now) :
    Tracks (p.clientFor c.scope c.now c.spawn).2 (reads ++ readsOf [servedBy p c]) c.now := by
  have hclosed := h.closeIdle hle
  rw [servedBy]
  rcases clientFor_cases p c.scope c.now c.spawn with
    ⟨a, e, b, hentries, hscope, hcall⟩ | ⟨hnone, ⟨err, hspawn, hcall⟩ | ⟨client, hspawn, hcall⟩⟩
  · rw [hcall]
    have hread : readsOf [(⟨c, ⟨.ok e.client, false⟩⟩ : Served C E)] =
        [⟨e.scope, e.client, c.now⟩] := by
      rw [hscope]
      rfl
    rw [hread]
    exact hclosed.reuse hentries
  · rw [hcall]
    have hread : readsOf [(⟨c, ⟨.error err, true⟩⟩ : Served C E)] = [] := rfl
    rw [hread, List.append_nil]
    obtain ⟨es, hperm, hseq, hbound, hreads⟩ := hclosed.listed
    exact ⟨⟨es, hperm, hseq, fun e he => (hbound e he).trans (Nat.le_succ _), hreads⟩,
      hclosed.timed, hclosed.le_now⟩
  · rw [hcall]
    exact hclosed.start hnone client

/-- A call leaves the entries the servers that were started last. -/
theorem HoldsStarted.clientFor (h : HoldsStarted p served) (c : Call C E) :
    HoldsStarted (p.clientFor c.scope c.now c.spawn).2 (served ++ [servedBy p c]) := by
  have hkept : ∀ e ∈ (p.closeIdle c.now).entries, lastStarted e.scope served = some e.client :=
    fun e he => h e (closeIdle_entries_subset p c.now he)
  intro x hx
  rw [lastStarted_concat, servedBy]
  rcases clientFor_cases p c.scope c.now c.spawn with
    ⟨a, e, b, hentries, hscope, hcall⟩ | ⟨hnone, ⟨err, hspawn, hcall⟩ | ⟨client, hspawn, hcall⟩⟩
  · rw [hcall] at hx ⊢
    have hlast : lastStarted x.scope served = some x.client := by
      rcases List.mem_append.mp hx with hmem | hmem
      · exact hkept x (hentries ▸ List.mem_append_left _ hmem)
      · rcases List.mem_cons.mp hmem with rfl | hmem
        · exact hkept e (hentries ▸ List.mem_append_right _ List.mem_cons_self)
        · exact hkept x (hentries ▸ List.mem_append_right _ (List.mem_cons_of_mem _ hmem))
    dsimp only [Served.started?]
    rw [if_neg Bool.false_ne_true, Option.none_or, ite_self, hlast]
  · rw [hcall] at hx ⊢
    dsimp only [Served.started?]
    rw [if_neg (fun heq => hnone x hx heq.symm)]
    exact hkept x hx
  · rw [hcall] at hx ⊢
    dsimp only [Served.started?] at hx ⊢
    rcases List.mem_append.mp hx with hmem | hmem
    · have hold := makeRoom_subset _ _ _ hmem
      rw [if_neg (fun heq => hnone x hold heq.symm)]
      exact hkept x hold
    · rw [List.mem_singleton.mp hmem, if_pos rfl]
      rfl

/-- Serving calls one after another keeps both. -/
theorem serve_tracks {reads : List (Read C)} {now : Nat} {calls : List (Call C E)}
    (h : Tracks p reads now) (hstarted : HoldsStarted p served)
    (hordered : calls.Pairwise fun a b => a.now ≤ b.now) (hle : ∀ c ∈ calls, now ≤ c.now) :
    ∃ last, Tracks (serve p calls).1 (reads ++ readsOf (serve p calls).2) last ∧
      HoldsStarted (serve p calls).1 (served ++ (serve p calls).2) ∧
      ∀ bound, now ≤ bound → (∀ c ∈ calls, c.now ≤ bound) → last ≤ bound := by
  induction calls generalizing p reads now served with
  | nil =>
      refine ⟨now, ?_, ?_, fun _ hbound _ => hbound⟩
      · rw [serve, readsOf, List.filterMap_nil, List.append_nil]
        exact h
      · rw [serve, List.append_nil]
        exact hstarted
  | cons c calls ih =>
      obtain ⟨hfirst, hrest⟩ := List.pairwise_cons.mp hordered
      obtain ⟨last, htracks, hholds, hbound⟩ := ih (h.clientFor (hle c List.mem_cons_self))
        (hstarted.clientFor c) hrest hfirst
      refine ⟨last, ?_, ?_, fun bound _ hcalls => ?_⟩
      · rw [List.append_assoc, readsOf, readsOf, ← List.filterMap_append] at htracks
        exact htracks
      · rw [List.append_assoc] at hholds
        exact hholds
      · exact hbound bound (hcalls c List.mem_cons_self) fun c' hc' =>
          hcalls c' (List.mem_cons_of_mem c hc')

/-- A call keeps the bounds of its pool. -/
theorem clientFor_bounds (p : ScopePool C) (c : Call C E) :
    (p.clientFor c.scope c.now c.spawn).2.max = p.max ∧
      (p.clientFor c.scope c.now c.spawn).2.idle = p.idle := by
  rcases clientFor_cases p c.scope c.now c.spawn with
    ⟨a, e, b, -, -, hcall⟩ | ⟨-, ⟨err, -, hcall⟩ | ⟨client, -, hcall⟩⟩
  all_goals
    rw [hcall]
    exact ⟨rfl, rfl⟩

theorem serve_bounds (p : ScopePool C) (calls : List (Call C E)) :
    (serve p calls).1.max = p.max ∧ (serve p calls).1.idle = p.idle := by
  induction calls generalizing p with
  | nil => exact ⟨rfl, rfl⟩
  | cons c calls ih =>
      obtain ⟨hmax, hidle⟩ := clientFor_bounds p c
      obtain ⟨hmax', hidle'⟩ := ih (p.clientFor c.scope c.now c.spawn).2
      exact ⟨hmax'.trans hmax, hidle'.trans hidle⟩

end Runs

/-- A new pool that has served some calls, and one more call, in the order of time. -/
structure Use (C E : Type) where
  max : Nat
  idle : Nat
  earlier : List (Call C E)
  call : Call C E
  ordered : (earlier ++ [call]).Pairwise fun a b => a.now ≤ b.now

namespace Use

variable (u : Use C E)

/-- The pool that the call finds. -/
def before : ScopePool C := (serve (.new u.max u.idle) u.earlier).1

def history : List (Served C E) := (serve (.new u.max u.idle) u.earlier).2

def outcome : Outcome C E := (u.before.clientFor u.call.scope u.call.now u.call.spawn).1

/-- The pool that the call leaves. -/
def after : ScopePool C := (u.before.clientFor u.call.scope u.call.now u.call.spawn).2

/-- All successful reads up to the call. -/
def reads : List (Read C) := readsOf (u.history ++ [⟨u.call, u.outcome⟩])

/-- Whether a time of a last read is not too long ago. -/
def live (time : Nat) : Bool := ScopePool.live u.idle u.call.now time

/-- A pool is a bounded list of what was read last, where what is too long ago does not count. -/
structure Lawful : Prop where
  distinct : (u.after.entries.map Entry.scope).Nodup
  bounded : u.after.entries.length ≤ Nat.max u.max 1
  held : (u.after.entries.map Entry.read).Perm
    (((newestFirst Read.scope u.reads).filter fun r => u.live r.time).take (Nat.max u.max 1))
  spawned_iff : u.outcome.spawned = true ↔
    ∀ e ∈ u.before.entries, u.live e.lastUsed = true → e.scope ≠ u.call.scope
  started : u.outcome.spawned = true → u.outcome.result = u.call.spawn
  reused : u.outcome.spawned = false →
    ∃ client, u.outcome.result = .ok client ∧ lastStarted u.call.scope u.history = some client
  failed : ∀ err, u.outcome.result = .error err →
    u.after.entries = u.before.entries.filter fun e => u.live e.lastUsed

theorem before_bounds : u.before.max = Nat.max u.max 1 ∧ u.before.idle = u.idle :=
  serve_bounds (.new u.max u.idle) u.earlier

theorem before_tracks : ∃ now ≤ u.call.now, Tracks u.before (readsOf u.history) now ∧
    HoldsStarted u.before u.history := by
  obtain ⟨hearlier, -, hlast⟩ := List.pairwise_append.mp u.ordered
  have hnew : Tracks (C := C) (.new u.max u.idle) [] 0 :=
    ⟨⟨[], List.Perm.refl _, List.Pairwise.nil, fun _ h => (nomatch h), List.take_nil.symm⟩,
      List.Pairwise.nil, fun _ h => (nomatch h)⟩
  have hempty : HoldsStarted (E := E) (ScopePool.new (C := C) u.max u.idle) [] :=
    fun _ h => (nomatch h)
  obtain ⟨now, htracks, hholds, hbound⟩ :=
    serve_tracks hnew hempty hearlier fun _ _ => Nat.zero_le _
  exact ⟨now, hbound u.call.now (Nat.zero_le _) fun c hc => hlast c hc u.call List.mem_cons_self,
    htracks, hholds⟩

/-- What is held when the idle servers are closed. -/
theorem mem_closeIdle (e : Entry C) : e ∈ (u.before.closeIdle u.call.now).entries ↔
    e ∈ u.before.entries ∧ u.live e.lastUsed = true := by
  rw [ScopePool.closeIdle, u.before_bounds.2]
  exact List.mem_filter

/-- How the call ends. -/
theorem outcome_cases :
    (∃ e ∈ (u.before.closeIdle u.call.now).entries, e.scope = u.call.scope ∧
      u.outcome = ⟨.ok e.client, false⟩) ∨
    (∀ e ∈ (u.before.closeIdle u.call.now).entries, e.scope ≠ u.call.scope) ∧
      u.outcome = ⟨u.call.spawn, true⟩ ∧
        ∀ err, u.call.spawn = .error err →
          u.after.entries = (u.before.closeIdle u.call.now).entries := by
  rcases clientFor_cases u.before u.call.scope u.call.now u.call.spawn with
    ⟨a, e, b, hentries, hscope, hcall⟩ | ⟨hnone, ⟨err, hspawn, hcall⟩ | ⟨client, hspawn, hcall⟩⟩
  · refine Or.inl ⟨e, ?_, hscope, congrArg Prod.fst hcall⟩
    rw [hentries]
    exact List.mem_append_right _ List.mem_cons_self
  · refine Or.inr ⟨hnone, ?_, fun _ _ => ?_⟩
    · rw [hspawn]
      exact congrArg Prod.fst hcall
    · rw [after, hcall]
  · refine Or.inr ⟨hnone, ?_, fun err herr => ?_⟩
    · rw [hspawn]
      exact congrArg Prod.fst hcall
    · rw [hspawn] at herr
      cases herr

/-- A server is started just where none is held for the scope. -/
theorem spawned_iff : u.outcome.spawned = true ↔
    ∀ e ∈ u.before.entries, u.live e.lastUsed = true → e.scope ≠ u.call.scope := by
  rcases u.outcome_cases with ⟨e, he, hscope, houtcome⟩ | ⟨hnone, houtcome, -⟩
  · rw [houtcome]
    obtain ⟨hmem, hlive⟩ := (u.mem_closeIdle e).mp he
    exact ⟨fun h => (nomatch h), fun h => absurd hscope (h e hmem hlive)⟩
  · rw [houtcome]
    exact ⟨fun _ e he hlive => hnone e ((u.mem_closeIdle e).mpr ⟨he, hlive⟩), fun _ => rfl⟩

theorem started (h : u.outcome.spawned = true) : u.outcome.result = u.call.spawn := by
  rcases u.outcome_cases with ⟨e, -, -, houtcome⟩ | ⟨-, houtcome, -⟩
  · rw [houtcome] at h
    cases h
  · rw [houtcome]

/-- A server that is reused is the one that was started last. -/
theorem reused (h : u.outcome.spawned = false) :
    ∃ client, u.outcome.result = .ok client ∧ lastStarted u.call.scope u.history = some client := by
  obtain ⟨now, -, -, hholds⟩ := u.before_tracks
  rcases u.outcome_cases with ⟨e, he, hscope, houtcome⟩ | ⟨-, houtcome, -⟩
  · refine ⟨e.client, by rw [houtcome], ?_⟩
    rw [← hscope]
    exact hholds e ((u.mem_closeIdle e).mp he).1
  · rw [houtcome] at h
    cases h

/-- A server that does not start leaves all that is not idle. -/
theorem failed (err : E) (h : u.outcome.result = .error err) :
    u.after.entries = u.before.entries.filter fun e => u.live e.lastUsed := by
  rcases u.outcome_cases with ⟨e, -, -, houtcome⟩ | ⟨-, houtcome, hafter⟩
  · rw [houtcome] at h
    cases h
  · rw [houtcome] at h
    rw [hafter err h, ScopePool.closeIdle, u.before_bounds.2]
    rfl

/-- **A pool holds the servers of the scopes that were read last.** -/
theorem lawful : u.Lawful := by
  obtain ⟨now, hle, htracks, hholds⟩ := u.before_tracks
  obtain ⟨hmax, hidle⟩ := u.before_bounds
  have hafter := htracks.clientFor (c := u.call) hle
  have hreads : readsOf u.history ++ readsOf [servedBy u.before u.call] = u.reads :=
    List.filterMap_append.symm
  rw [hreads] at hafter
  have hheld : (u.after.entries.map Entry.read).Perm
      (((newestFirst Read.scope u.reads).filter fun r => u.live r.time).take (Nat.max u.max 1)) := by
    obtain ⟨es, hperm, -, -, hlisted⟩ := hafter.listed
    obtain ⟨hmax', hidle'⟩ := clientFor_bounds u.before u.call
    rw [newestLive, hmax', hidle', hmax, hidle] at hlisted
    exact (hperm.map Entry.read).symm.trans (List.Perm.of_eq hlisted)
  refine ⟨hafter.nodup_scopes, ?_, hheld, ?_, ?_, ?_, ?_⟩
  · rw [← List.length_map (f := Entry.read), hheld.length_eq]
    exact List.length_take_le _ _
  · exact u.spawned_iff
  · exact u.started
  · exact u.reused
  · exact u.failed

/-- Room for two servers, held for ten: the third read closes the server of the first, and by the
last call the second has not been read for too long. -/
def crowded : Use Text Text where
  max := 2
  idle := 10
  earlier := [⟨"a", 0, .ok "server a"⟩, ⟨"b", 1, .ok "server b"⟩, ⟨"c", 2, .ok "server c"⟩]
  call := ⟨"a", 12, .error "no engram"⟩
  ordered := by decide

theorem lawful_crowded : crowded.Lawful ∧
    crowded.before.entries.map Entry.scope = ["b", "c"].map String.toList ∧
      crowded.after.entries.map Entry.scope = ["c"].map String.toList :=
  ⟨crowded.lawful, by decide, by decide⟩

end Use

end Genaryx.Memory
