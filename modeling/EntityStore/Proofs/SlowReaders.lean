/-
Readers and writers of one cache at the same time. A reader takes the generation of the
cache, reads rows from the database and fills them in, step by step and each step at any
time; a writer changes rows of the database at once and then settles what it owes to the
cache, effect by effect. Once the writer owes nothing, no cached row is stale, however
long a reader has waited with a row that it read. What a store does to its cache, unit by
unit and commit by commit, is made of these steps.
-/

import EntityStore.Proofs.Coherence
import EntityStore.Proofs.LastWrites
import EntityStore.Store.Reading
import Mathlib.Logic.Relation

set_option autoImplicit false

namespace EntityStore

structure Reader where
  generation : Nat
  entries : List (Key × Row) := []
  deriving DecidableEq, Repr

def Reader.look (rows : Key → Option Row) (key : Key) (reader : Reader) : Reader :=
  { reader with entries := reader.entries ++ (rows key).toList.map (Prod.mk key) }

structure Traffic where
  /-- The rows of the database. -/
  rows : Key → Option Row
  cache : Cache
  readers : List Reader := []
  /-- What the writer that has committed still owes to the cache. -/
  owed : List CacheEffect := []

namespace Traffic

def start (policy : CachePolicy) (rows : Key → Option Row) : Traffic :=
  { rows := rows, cache := Cache.empty policy }

def setReader (index : Nat) (reader : Reader) (traffic : Traffic) : Traffic :=
  { traffic with readers := traffic.readers.set index reader }

/-- One step of a reader or of a writer; anyone may look into the cache or clear it. -/
inductive Step (traffic : Traffic) : Traffic → Prop where
  | starts : Step traffic
      { traffic with readers := traffic.readers ++ [{ generation := traffic.cache.generation }] }
  | reads {index : Nat} {reader : Reader} (key : Key) :
      traffic.readers[index]? = some reader →
      Step traffic (traffic.setReader index (reader.look traffic.rows key))
  | fills {reader : Reader} {entry : Key × Row} : reader ∈ traffic.readers →
      entry ∈ reader.entries →
      Step traffic { traffic with
        cache := (traffic.cache.fill entry.1 entry.2 reader.generation).2 }
  /-- Writers follow one another: the one before has settled everything. -/
  | commits (effects : List CacheEffect) : traffic.owed = [] →
      (∀ effect ∈ effects, effect.isFill = false) →
      Step traffic { traffic with rows := overwritten effects traffic.rows, owed := effects }
  | settles {effect : CacheEffect} {rest : List CacheEffect} (generation : Nat) :
      traffic.owed = effect :: rest →
      Step traffic { traffic with
        cache := WriteSet.applyEffect generation traffic.cache effect, owed := rest }
  | looks (key : Key) : Step traffic { traffic with cache := (traffic.cache.get key).2 }
  | clears : Step traffic { traffic with cache := traffic.cache.clear }

/-- Any number of steps. -/
abbrev Course : Traffic → Traffic → Prop := Relation.ReflTransGen Step

/-! ### What every step keeps -/

/-- What the cache shows is current unless the writer still owes an effect on it, and so is
what a reader may still fill in. -/
structure Current (traffic : Traffic) : Prop where
  keyed : ∀ {key : Key} {row : Row}, traffic.cache.Shows key row → key.hasId = true
  cached : ∀ {key : Key} {row : Row}, traffic.cache.Shows key row →
    lastWrite? key traffic.owed = none → traffic.rows key = some row
  earlier : ∀ reader ∈ traffic.readers, reader.generation ≤ traffic.cache.generation
  /-- A reader whose generation is over fills nothing in, whatever it has read. -/
  read : ∀ reader ∈ traffic.readers, reader.generation = traffic.cache.generation →
    ∀ entry ∈ reader.entries, entry.1.hasId = true →
      lastWrite? entry.1 traffic.owed = none → traffic.rows entry.1 = some entry.2
  written : ∀ {key : Key} {left : Option Row}, lastWrite? key traffic.owed = some left →
    traffic.rows key = left
  writing : ∀ effect ∈ traffic.owed, effect.isFill = false

private theorem current_start (policy : CachePolicy) (rows : Key → Option Row) :
    (start policy rows).Current where
  keyed isShown := by cases isShown
  cached isShown := by cases isShown
  earlier reader member := by cases member
  read reader member := by cases member
  written found := by cases found
  writing effect member := by cases member

namespace Current

variable {traffic : Traffic}

private theorem starts (current : traffic.Current) :
    Current { traffic with
      readers := traffic.readers ++ [{ generation := traffic.cache.generation }] } where
  keyed := current.keyed
  cached := current.cached
  earlier reader member := by
    rcases List.mem_append.mp member with old | new
    · exact current.earlier reader old
    · obtain rfl := List.mem_singleton.mp new
      exact Nat.le_refl traffic.cache.generation
  read reader member := by
    rcases List.mem_append.mp member with old | new
    · exact current.read reader old
    · rw [List.mem_singleton.mp new]
      intro _ entry impossible
      cases impossible
  written := current.written
  writing := current.writing

private theorem reads (current : traffic.Current) {index : Nat} {reader : Reader} (key : Key)
    (found : traffic.readers[index]? = some reader) :
    (traffic.setReader index (reader.look traffic.rows key)).Current where
  keyed := current.keyed
  cached := current.cached
  earlier other member := by
    rcases List.mem_or_eq_of_mem_set member with old | same
    · exact current.earlier other old
    · rw [same]
      exact current.earlier reader (List.mem_of_getElem? found)
  read other member := by
    rcases List.mem_or_eq_of_mem_set member with old | same
    · exact current.read other old
    · subst same
      intro inTime entry isRead keyed untouched
      rcases List.mem_append.mp isRead with before | now
      · exact current.read reader (List.mem_of_getElem? found) inTime entry before keyed untouched
      · obtain ⟨row, held, rfl⟩ := List.mem_map.mp now
        exact Option.mem_toList.mp held
  written := current.written
  writing := current.writing

private theorem fills (current : traffic.Current) {reader : Reader} {entry : Key × Row}
    (member : reader ∈ traffic.readers) (isRead : entry ∈ reader.entries) :
    Current { traffic with
      cache := (traffic.cache.fill entry.1 entry.2 reader.generation).2 } := by
  unfold Cache.fill
  split
  · rename_i accepted
    rw [Bool.and_eq_true, Bool.and_eq_true] at accepted
    obtain ⟨⟨keyed, inTime⟩, _⟩ := accepted
    refine ⟨fun isShown => ?_, fun isShown untouched => ?_, current.earlier, current.read,
      current.written, current.writing⟩
    · rcases Cache.shows_store isShown with ⟨rfl, _⟩ | ⟨_, before⟩
      · exact keyed
      · exact current.keyed before
    · rcases Cache.shows_store isShown with ⟨rfl, rfl⟩ | ⟨_, before⟩
      · exact current.read reader member (eq_of_beq inTime).symm entry isRead keyed untouched
      · exact current.cached before untouched
  · exact current

private theorem commits (current : traffic.Current) {effects : List CacheEffect}
    (settled : traffic.owed = []) (writing : ∀ effect ∈ effects, effect.isFill = false) :
    Current { traffic with rows := overwritten effects traffic.rows, owed := effects } := by
  have before : ∀ {key : Key}, lastWrite? key traffic.owed = none := by
    intro key
    rw [settled]
    rfl
  have same : ∀ {key : Key}, lastWrite? key effects = none →
      overwritten effects traffic.rows key = traffic.rows key := by
    intro key untouched
    rw [overwritten, untouched]
    rfl
  refine ⟨current.keyed, fun isShown untouched => ?_, current.earlier,
    fun reader member inTime entry isRead keyed untouched => ?_, fun found => ?_, writing⟩
  · exact (same untouched).trans (current.cached isShown before)
  · exact (same untouched).trans (current.read reader member inTime entry isRead keyed before)
  · simp only [overwritten, found, Option.getD_some]

private theorem advance (current : traffic.Current) {cache : Cache} {rest : List CacheEffect}
    (advanced : cache.generation = traffic.cache.generation + 1)
    (keyed : ∀ {key : Key} {row : Row}, cache.Shows key row → key.hasId = true)
    (cached : ∀ {key : Key} {row : Row}, cache.Shows key row → lastWrite? key rest = none →
      traffic.rows key = some row)
    (written : ∀ {key : Key} {left : Option Row}, lastWrite? key rest = some left →
      traffic.rows key = left)
    (writing : ∀ effect ∈ rest, effect.isFill = false) :
    Current { traffic with cache := cache, owed := rest } := by
  -- No reader under way has the new generation, so none of them fills anything in.
  refine ⟨keyed, cached, fun reader member => ?_, fun reader member inTime => ?_, written, writing⟩
  · have before := current.earlier reader member
    show reader.generation ≤ cache.generation
    omega
  · have before := current.earlier reader member
    have late : reader.generation = cache.generation := inTime
    omega

/-- An effect on the cache ends the generation of every reader under way, but for a row
that is put under a key without id, which no reader fills in. -/
theorem settles (current : traffic.Current) {effect : CacheEffect} {rest : List CacheEffect}
    (generation : Nat) (owed : traffic.owed = effect :: rest) :
    Current { traffic with
      cache := WriteSet.applyEffect generation traffic.cache effect, owed := rest } := by
  have writes : effect.isFill = false :=
    current.writing effect (owed ▸ List.mem_cons_self)
  have untouched_cons : ∀ {key : Key}, effect.key ≠ key → lastWrite? key rest = none →
      lastWrite? key traffic.owed = none := by
    intro key elsewhere untouched
    rw [owed, lastWrite?, untouched, CacheEffect.write?_of_ne elsewhere]
    rfl
  have written : ∀ {key : Key} {left : Option Row}, lastWrite? key rest = some left →
      traffic.rows key = left := by
    intro key left found
    refine current.written ?_
    rw [owed, lastWrite?, found]
    rfl
  have writing : ∀ other ∈ rest, other.isFill = false := fun other member =>
    current.writing other (owed ▸ List.mem_cons_of_mem effect member)
  have left_here : ∀ {left : Option Row}, effect.write? effect.key = some left →
      lastWrite? effect.key rest = none → traffic.rows effect.key = left := by
    intro left leaves untouched
    refine current.written ?_
    rw [owed, lastWrite?, untouched, leaves]
    rfl
  cases effect with
  | fill key row => cases writes
  | put key row =>
      simp only [WriteSet.applyEffect, Cache.put]
      split
      · rename_i keyed
        refine current.advance rfl (fun isShown => ?_) (fun isShown untouched => ?_) written writing
        · rcases Cache.shows_store isShown with ⟨rfl, _⟩ | ⟨_, before⟩
          · exact keyed
          · exact current.keyed before
        · rcases Cache.shows_store isShown with ⟨rfl, rfl⟩ | ⟨different, before⟩
          · exact left_here (if_pos rfl) untouched
          · exact current.cached before (untouched_cons (Ne.symm different) untouched)
      · rename_i fresh
        have elsewhere : ∀ {other : Key}, other.hasId = true → key ≠ other := by
          rintro other keyed rfl
          exact fresh keyed
        exact ⟨current.keyed,
          fun isShown untouched => current.cached isShown
            (untouched_cons (elsewhere (current.keyed isShown)) untouched),
          current.earlier,
          fun reader member inTime entry isRead keyed untouched =>
            current.read reader member inTime entry isRead keyed
              (untouched_cons (elsewhere keyed) untouched),
          written, writing⟩
  | evict key =>
      refine current.advance rfl (fun isShown => current.keyed (Cache.shows_invalidate isShown).2)
        (fun isShown untouched => ?_) written writing
      obtain ⟨different, before⟩ := Cache.shows_invalidate isShown
      exact current.cached before (untouched_cons (Ne.symm different) untouched)

private theorem looks (current : traffic.Current) (key : Key) :
    Current { traffic with cache := (traffic.cache.get key).2 } := by
  have same : (traffic.cache.get key).2.generation = traffic.cache.generation := by
    unfold Cache.get
    split <;> rfl
  exact ⟨fun isShown => current.keyed (Cache.shows_get isShown),
    fun isShown => current.cached (Cache.shows_get isShown),
    fun reader member => same ▸ current.earlier reader member,
    fun reader member inTime => current.read reader member (inTime.trans same),
    current.written, current.writing⟩

private theorem clears (current : traffic.Current) :
    Current { traffic with cache := traffic.cache.clear } :=
  current.advance rfl (fun isShown => (Cache.not_shows_clear _ _ _ isShown).elim)
    (fun isShown => (Cache.not_shows_clear _ _ _ isShown).elim) current.written current.writing

theorem step {after : Traffic} (current : traffic.Current) (step : Step traffic after) :
    after.Current := by
  cases step with
  | starts => exact current.starts
  | reads key found => exact current.reads key found
  | fills member isRead => exact current.fills member isRead
  | commits effects settled writing => exact current.commits settled writing
  | settles generation owed => exact current.settles generation owed
  | looks key => exact current.looks key
  | clears => exact current.clears

theorem course {after : Traffic} (current : traffic.Current)
    (course : Course traffic after) : after.Current := by
  induction course with
  | refl => exact current
  | tail _ last ih => exact ih.step last

end Current

/-- Whenever no writer owes anything to the cache, what is cached under a key is the row of
the database. -/
theorem cache_current {policy : CachePolicy} {rows : Key → Option Row} {traffic : Traffic}
    (course : Course (start policy rows) traffic) (settled : traffic.owed = []) (key : Key) :
    traffic.cache.find? key = none ∨ traffic.cache.find? key = traffic.rows key := by
  cases isShown : traffic.cache.find? key with
  | none => exact Or.inl rfl
  | some row =>
      refine Or.inr (Eq.symm ?_)
      refine ((current_start policy rows).course course).cached isShown ?_
      rw [settled]
      rfl

namespace Samples

def key : Key := Key.withId "Author" 1

def old : Row := Row.ofList [("name", .text "Ada")]

def rename : CacheEffect := .put key (Row.ofList [("name", .text "Grace")])

def slow (rows : Key → Option Row) (cache : Cache) (owed : List CacheEffect) : Traffic :=
  ⟨rows, cache, [⟨0, [(key, old)]⟩], owed⟩

private theorem slow_fills (rows : Key → Option Row) (cache : Cache) (owed : List CacheEffect) :
    Step (slow rows cache owed) (slow rows (cache.fill key old 0).2 owed) :=
  @Step.fills _ ⟨0, [(key, old)]⟩ (key, old) List.mem_cons_self List.mem_cons_self

/-- The reader fills the old row in both before and after the writer settles its change. -/
def overtaken : Traffic :=
  slow (overwritten [rename] fun _ => some old)
    ((WriteSet.applyEffect 0 ((Cache.empty (.lru 1)).fill key old 0).2 rename).fill key old 0).2
    []

private theorem course_overtaken : Course (start (.lru 1) fun _ => some old) overtaken := by
  have reads : Course (start (.lru 1) fun _ => some old)
      (slow (fun _ => some old) (Cache.empty (.lru 1)) []) :=
    .tail (.single .starts) (@Step.reads _ 0 ⟨0, []⟩ key rfl)
  have commits : Step (slow (fun _ => some old) (Cache.empty (.lru 1)) [])
      (slow (overwritten [rename] fun _ => some old) (Cache.empty (.lru 1)) [rename]) :=
    .commits [rename] rfl (by decide)
  exact (((reads.tail commits).tail (slow_fills _ _ _)).tail (.settles 0 rfl)).tail
    (slow_fills _ _ _)

end Samples

theorem cache_current_overtaken :
    Course (start (.lru 1) fun _ => some Samples.old) Samples.overtaken ∧
      Samples.overtaken.owed = [] ∧
      (Samples.overtaken.cache.find? Samples.key = none ∨
        Samples.overtaken.cache.find? Samples.key = Samples.overtaken.rows Samples.key) :=
  ⟨Samples.course_overtaken, rfl, cache_current Samples.course_overtaken rfl Samples.key⟩

/-! ### The traffic of a store -/

section Units

variable {traffic : Traffic}

private theorem course_reads (entries : List (Key × Row)) {index : Nat} {reader : Reader}
    (found : traffic.readers[index]? = some reader)
    (held : ∀ entry ∈ entries, traffic.rows entry.1 = some entry.2) :
    Course traffic (traffic.setReader index ⟨reader.generation, reader.entries ++ entries⟩) := by
  induction entries generalizing traffic reader with
  | nil =>
      obtain ⟨_, rfl⟩ := List.getElem?_eq_some_iff.mp found
      rw [List.append_nil, setReader, List.set_getElem_self]
  | cons entry rest ih =>
      have inRange : index < traffic.readers.length := (List.getElem?_eq_some_iff.mp found).1
      have step : Step traffic (traffic.setReader index
          ⟨reader.generation, reader.entries ++ [entry]⟩) := by
        have reads : Step traffic _ := .reads entry.1 found
        rwa [Reader.look, held entry List.mem_cons_self] at reads
      have placed : (traffic.setReader index
          ⟨reader.generation, reader.entries ++ [entry]⟩).readers[index]?
          = some ⟨reader.generation, reader.entries ++ [entry]⟩ :=
        List.getElem?_set_self inRange
      have later := ih placed fun other member => held other (List.mem_cons_of_mem entry member)
      simp only [setReader, List.set_set, List.append_assoc, List.singleton_append] at later
      exact .head step later

private theorem course_fills (entries : List (Key × Row)) {reader : Reader}
    (member : reader ∈ traffic.readers) (isRead : ∀ entry ∈ entries, entry ∈ reader.entries) :
    Course traffic { traffic with
      cache := (WriteSet.ofFills entries).apply reader.generation traffic.cache } := by
  induction entries generalizing traffic with
  | nil => exact .refl
  | cons entry rest ih =>
      refine .head (.fills member (isRead entry List.mem_cons_self)) ?_
      exact ih member fun other isLater => isRead other (List.mem_cons_of_mem entry isLater)

private theorem course_of_reading {entries : List (Key × Row)}
    (held : ∀ entry ∈ entries, traffic.rows entry.1 = some entry.2) :
    Course traffic { traffic with
      cache := (WriteSet.ofFills entries).apply traffic.cache.generation traffic.cache
      readers := traffic.readers ++ [⟨traffic.cache.generation, entries⟩] } := by
  refine .head .starts ?_
  have reads : Course
      { traffic with readers := traffic.readers ++ [⟨traffic.cache.generation, []⟩] } _ :=
    course_reads entries List.getElem?_concat_length held
  refine reads.trans ?_
  rw [setReader, List.set_append_right _ _ (Nat.le_refl _), Nat.sub_self]
  have new : ⟨traffic.cache.generation, entries⟩ ∈
      traffic.readers ++ [(⟨traffic.cache.generation, entries⟩ : Reader)] :=
    List.mem_append_right _ List.mem_cons_self
  exact @course_fills _ entries ⟨traffic.cache.generation, entries⟩ new fun _ member => member

private theorem course_settles (generation : Nat) (owners : List Key) :
    Course traffic { traffic with
      cache := WriteSet.apply ⟨traffic.owed, owners⟩ generation traffic.cache, owed := [] } := by
  obtain ⟨rows, cache, readers, owed⟩ := traffic
  induction owed generalizing cache with
  | nil => exact .refl
  | cons effect rest ih => exact .head (.settles generation rfl) (ih _)

private theorem course_of_writing (settled : traffic.owed = []) {writes : WriteSet}
    (writing : ∀ effect ∈ writes.effects, effect.isFill = false) (generation : Nat) :
    Course traffic { traffic with
      rows := overwritten writes.effects traffic.rows
      cache := writes.apply generation traffic.cache } := by
  obtain ⟨rows, cache, readers, owed⟩ := traffic
  cases settled
  exact .head (.commits writes.effects rfl writing) (course_settles generation writes.owners)

variable {World α : Type} {session : Session World} {store after : Store World}

/-- A unit outside a transaction is a reader or a writer of the cache, as its work tells. -/
theorem course_of_unit {issued : Question → Prop} {gives : α × WriteSet → List Event → Prop}
    {transactional : Bool} {work : Store.Work World α} {result : α}
    (asks : ∀ lease, Store.Asks session.database issued lease (work lease) gives)
    (outside : store.inTransaction session.thread = false)
    (ran : (Store.unit session transactional work).run store = (.ok result, after)) :
    ∃ writes log, gives (result, writes) log ∧ ∀ (rows : Key → Option Row) (readers : List Reader),
      (∀ entries, writes = .ofFills entries → (∀ entry ∈ entries, rows entry.1 = some entry.2) →
        Course ⟨rows, store.cache, readers, []⟩
          ⟨rows, after.cache, readers ++ [⟨store.cache.generation, entries⟩], []⟩) ∧
      ((∀ effect ∈ writes.effects, effect.isFill = false) →
        Course ⟨rows, store.cache, readers, []⟩
          ⟨overwritten writes.effects rows, after.cache, readers, []⟩) := by
  have ends := (Store.ensures_unit asks fun transaction inside => by
    simp [Store.inTransaction, inside] at outside).of_run ran
  obtain ⟨writes, log, given, applied⟩ := ends.applies outside
  refine ⟨writes, log, given, fun rows readers => ⟨?_, fun writing => ?_⟩⟩
  · rintro entries rfl held
    rw [applied]
    exact @course_of_reading ⟨rows, store.cache, readers, []⟩ entries held
  · rw [applied]
    exact course_of_writing rfl writing store.cache.generation

/-- A commit is a writer, of all that the transaction has left for it. -/
theorem course_of_commit {transaction : Transaction} {connection : ConnectionId}
    (inside : store.transaction? session.thread = some transaction)
    (leased : store.pool.leased.lookup transaction.lease = some connection)
    (writing : ∀ effect ∈ transaction.writes.effects, effect.isFill = false)
    (ran : (Store.commitTransaction session).run store = (.ok (), after))
    (rows : Key → Option Row) (readers : List Reader) :
    Course ⟨rows, store.cache, readers, []⟩
      ⟨overwritten transaction.writes.effects rows, after.cache, readers, []⟩ := by
  have ends := (Store.ensures_commitTransaction fun other isOther =>
    ⟨connection, Option.some.inj (inside.symm.trans isOther) ▸ leased⟩).of_run ran
  cases ends with
  | @committed other _ world _ isOther _ _ =>
      obtain rfl := Option.some.inj (inside.symm.trans isOther)
      have applied := Store.cache_written transaction.writes store.cache.generation
        ((store.dropTransaction session.thread).withWorld world)
      have writes : Course ⟨rows, store.cache, readers, []⟩ _ :=
        course_of_writing rfl writing store.cache.generation
      exact applied ▸ writes

end Units

end Traffic
end EntityStore
