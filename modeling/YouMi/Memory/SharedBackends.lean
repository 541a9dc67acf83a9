import YouMi.Memory.Manager

/-!
# Backends that differ in the sessions of others

Two states of a backend are alike for a tenant and the session ids that are its own if
they have the same under these ids, and the second has nothing else, while no other
session of the first has the tenant.  The tenant's own calls are answered alike in both;
calls that write under other ids are not seen.
-/

namespace YouMi.Memory

open YouMi.Library YouMi.Python

variable {mine : String → Bool} {tenant : String} {world : World}

/-! ## The file backend -/

namespace FileBackend

structure Alike (mine : String → Bool) (tenant : String) (full purged : FileBackend) : Prop where
  files : ∀ directory, (full.readData directory).sessions.filter (fun entry => mine entry.1) =
    (purged.readData directory).sessions
  foreign : ∀ directory, ∀ entry ∈ (full.readData directory).sessions,
    mine entry.1 = false → entry.2.tenant ≠ tenant
  keyed : ∀ directory, ∀ entry ∈ (full.readData directory).sessions, entry.2.sessionId = entry.1
  /-- A session id of the tenant is in one directory only. -/
  alone : ∀ sessionId, mine sessionId = true → ∀ name other,
    ((full.readData (.inside [name])).sessions.lookup sessionId).isSome →
      ((full.readData (.inside [other])).sessions.lookup sessionId).isSome → name = other

/-- No directory but the agent's has the session. -/
def Home (s : FileBackend) (sessionId agentId : String) : Prop :=
  ∀ name, .inside [name] ≠ agentDirectory agentId →
    (s.readData (.inside [name])).sessions.lookup sessionId = none

variable {full purged : FileBackend} {sessionId agentId : String}

theorem Alike.lookup_eq (alike : Alike mine tenant full purged) (own : mine sessionId = true)
    (directory : Directory) : (full.readData directory).sessions.lookup sessionId =
      (purged.readData directory).sessions.lookup sessionId := by
  rw [← alike.files, OrderedDict.lookup_filter (full.readData directory).distinct]
  cases (full.readData directory).sessions.lookup sessionId with
  | none => rfl
  | some session => exact (if_pos own).symm

theorem Alike.find_eq (alike : Alike mine tenant full purged) (own : mine sessionId = true) :
    full.find sessionId (world.iterdir full.agentDirs) =
      purged.find sessionId (world.iterdir purged.agentDirs) := by
  by_cases stored : ∃ name,
      ((full.readData (.inside [name])).sessions.lookup sessionId).isSome
  · obtain ⟨name, present⟩ := stored
    obtain ⟨session, here⟩ := Option.isSome_iff_exists.mp present
    have alone : ∀ other,
        ((full.readData (.inside [other])).sessions.lookup sessionId).isSome → other = name :=
      fun other there => alike.alone sessionId own other name there present
    rw [find_of_alone alone here]
    rw [alike.lookup_eq own] at here
    exact (find_of_alone (fun other there => alone other
      (by rwa [alike.lookup_eq own])) here).symm
  · have absent (name : String) :
        (full.readData (.inside [name])).sessions.lookup sessionId = none :=
      Option.not_isSome_iff_eq_none.mp fun present => stored ⟨name, present⟩
    rw [find_eq_none_iff.mpr fun name _ => absent name]
    exact (find_eq_none_iff.mpr fun name _ => by rw [← alike.lookup_eq own, absent]).symm

theorem Alike.sessionsOf_eq (alike : Alike mine tenant full purged) (agentId : String) :
    full.sessionsOf agentId (some tenant) = purged.sessionsOf agentId (some tenant) := by
  unfold sessionsOf
  dsimp only
  rw [← alike.files, List.filter_map, List.filter_map, List.filter_filter]
  congr 2
  refine List.filter_congr fun entry member => ?_
  cases own : mine entry.1 with
  | true => simp
  | false =>
      have other := alike.foreign _ entry member own
      simp [SessionRecord.ofTenant, FileSession.toRecord, other]

/-- The sessions that a query for the tenant gives are the tenant's own. -/
theorem Alike.mine_of_mem (alike : Alike mine tenant full purged) {record : SessionRecord}
    (member : record ∈ full.sessionsOf agentId (some tenant)) : mine record.sessionId = true := by
  unfold sessionsOf at member
  have listed := (List.perm_insertionSort _ _).mem_iff.mp member
  obtain ⟨there, passes⟩ := List.mem_filter.mp listed
  obtain ⟨entry, stored, rfl⟩ := List.mem_map.mp there
  have passes : entry.2.toRecord.tenant = tenant := by simpa [SessionRecord.ofTenant] using passes
  by_contra other
  refine alike.foreign _ entry stored ?_ passes
  rw [← alike.keyed _ entry stored]
  exact Bool.eq_false_of_not_eq_true other

/-- Writing one file of the first state, and the file or nothing of the second one. -/
theorem Alike.writeData (alike : Alike mine tenant full purged) {directory : Directory}
    {data : AgentData} {after : FileBackend}
    (others : ∀ other, other ≠ directory →
      (after.readData other).sessions = (purged.readData other).sessions)
    (files : data.sessions.filter (fun entry => mine entry.1) = (after.readData directory).sessions)
    (foreign : ∀ entry ∈ data.sessions, mine entry.1 = false → entry.2.tenant ≠ tenant)
    (keyed : ∀ entry ∈ data.sessions, entry.2.sessionId = entry.1)
    (alone : ∀ here, directory = .inside [here] → ∀ sessionId, mine sessionId = true →
      (data.sessions.lookup sessionId).isSome → ∀ name, name ≠ here →
        (full.readData (.inside [name])).sessions.lookup sessionId = none) :
    Alike mine tenant (full.writeData directory data) after := by
  constructor
  · intro other
    rw [readData_writeData]
    by_cases same : other = directory
    · subst same
      rw [if_pos rfl]
      exact files
    · rw [if_neg same, others other same]
      exact alike.files other
  · intro other
    rw [readData_writeData]
    split
    · exact foreign
    · exact alike.foreign other
  · intro other
    rw [readData_writeData]
    split
    · exact keyed
    · exact alike.keyed other
  · intro sessionId own name other
    have elsewhere (here there : String) (written : .inside [here] = directory)
        (apart : there ≠ here) (present : (data.sessions.lookup sessionId).isSome) :
        ¬((full.readData (.inside [there])).sessions.lookup sessionId).isSome := by
      rw [alone here written.symm sessionId own present there apart]
      exact Bool.false_ne_true
    rw [readData_writeData, readData_writeData]
    by_contra apart
    have distinct : name ≠ other := fun same => apart fun _ _ => same
    apply apart
    intro first second
    by_cases here : .inside [name] = directory
    · have there : .inside [other] ≠ directory := fun there => by
        cases here.trans there.symm
        exact distinct rfl
      rw [if_pos here] at first
      rw [if_neg there] at second
      exact absurd second (elsewhere name other here (Ne.symm distinct) first)
    · rw [if_neg here] at first
      by_cases there : .inside [other] = directory
      · rw [if_pos there] at second
        exact absurd first (elsewhere other name there distinct second)
      · rw [if_neg there] at second
        exact alike.alone sessionId own name other first second

/-- A session of the tenant that is in a directory is in no other one. -/
theorem Alike.absent_elsewhere (alike : Alike mine tenant full purged)
    (own : mine sessionId = true) {here name : String} (apart : name ≠ here)
    (present : ((full.readData (.inside [here])).sessions.lookup sessionId).isSome) :
    (full.readData (.inside [name])).sessions.lookup sessionId = none := by
  by_contra there
  exact apart (alike.alone sessionId own name here
    (Option.isSome_iff_ne_none.mpr there) present)

variable {records : List MessageRecord} {metadata : Option Dict} {saver : String}

/-- A save under a session id of the tenant, for the tenant. -/
theorem Alike.put_own (alike : Alike mine tenant full purged) (own : mine sessionId = true)
    (home : full.Home sessionId agentId) :
    let directory := agentDirectory agentId
    Alike mine tenant
      (full.writeData directory ((full.readData directory).put world sessionId agentId records
        metadata tenant))
      (purged.writeData directory ((purged.readData directory).put world sessionId agentId records
        metadata tenant)) := by
  intro directory
  refine alike.writeData ?_ ?_ ?_ ?_ ?_
  · intro other elsewhere
    rw [readData_writeData, if_neg elsewhere]
  · rw [readData_writeData, if_pos rfl]
    change (OrderedDict.assign _ _ _).filter _ = OrderedDict.assign _ _ _
    rw [OrderedDict.filter_assign_of_kept own, alike.files, alike.lookup_eq own]
  · intro entry member other
    rcases OrderedDict.mem_assign member with rfl | old
    · rw [own] at other
      cases other
    · exact alike.foreign _ entry old other
  · intro entry member
    rcases OrderedDict.mem_assign member with rfl | old
    · rfl
    · exact alike.keyed _ entry old
  · intro here written id ownId present name apart
    change ((OrderedDict.assign _ _ _).lookup id).isSome at present
    rw [OrderedDict.lookup_assign] at present
    split at present
    · rename_i same
      subst same
      refine home name fun same => apart ?_
      cases same.trans written
      rfl
    · rw [written] at present
      exact alike.absent_elsewhere ownId apart present

/-- A save under a session id of another, for another tenant. -/
theorem Alike.put_other (alike : Alike mine tenant full purged) (other : mine sessionId = false)
    (foreign : saver ≠ tenant) :
    Alike mine tenant
      (full.writeData (agentDirectory agentId)
        ((full.readData (agentDirectory agentId)).put world sessionId agentId records metadata
          saver)) purged := by
  refine alike.writeData (fun _ _ => rfl) ?_ ?_ ?_ ?_
  · change (OrderedDict.assign _ _ _).filter _ = _
    rw [OrderedDict.filter_assign_of_other other, alike.files]
  · intro entry member apart
    rcases OrderedDict.mem_assign member with rfl | old
    · change ((List.lookup _ _).map _).getD saver ≠ tenant
      cases stored : (full.readData (agentDirectory agentId)).sessions.lookup sessionId with
      | none => exact foreign
      | some old => exact alike.foreign _ _ (OrderedDict.mem_of_lookup stored) other
    · exact alike.foreign _ entry old apart
  · intro entry member
    rcases OrderedDict.mem_assign member with rfl | old
    · rfl
    · exact alike.keyed _ entry old
  · intro here written id own present name apart
    change ((OrderedDict.assign _ _ _).lookup id).isSome at present
    have ne : id ≠ sessionId := fun same => by
      rw [same, other] at own
      cases own
    rw [OrderedDict.lookup_assign_ne ne, written] at present
    exact alike.absent_elsewhere own apart present

/-- The first file after a removal, beside a second one that has had it too or need not. -/
theorem Alike.remove (alike : Alike mine tenant full purged) {name : String}
    {after : FileBackend}
    (others : ∀ directory, directory ≠ .inside [name] →
      (after.readData directory).sessions = (purged.readData directory).sessions)
    (files : (OrderedDict.erase (full.readData (.inside [name])).sessions sessionId).filter
      (fun entry => mine entry.1) = (after.readData (.inside [name])).sessions) :
    Alike mine tenant
      (full.writeData (.inside [name]) ((full.readData (.inside [name])).remove sessionId))
      after := by
  refine alike.writeData others files ?_ ?_ ?_
  · exact fun entry member => alike.foreign _ entry (List.mem_of_mem_filter member)
  · exact fun entry member => alike.keyed _ entry (List.mem_of_mem_filter member)
  · intro here written id own present other apart
    cases written
    change ((OrderedDict.erase _ _).lookup id).isSome at present
    rw [OrderedDict.lookup_erase] at present
    split at present
    · cases present
    · exact alike.absent_elsewhere own apart present

theorem Alike.deleteSession_own (alike : Alike mine tenant full purged)
    (own : mine sessionId = true) :
    Alike mine tenant (deleteSession world full sessionId)
      (deleteSession world purged sessionId) := by
  unfold deleteSession
  rw [alike.find_eq own]
  cases purged.find sessionId (world.iterdir purged.agentDirs) with
  | none => exact alike
  | some found =>
      obtain ⟨name, session⟩ := found
      refine alike.remove (fun directory elsewhere => ?_) ?_
      · rw [readData_writeData, if_neg elsewhere]
      · rw [readData_writeData, if_pos rfl, OrderedDict.filter_erase, alike.files]
        rfl

theorem Alike.deleteSession_other (alike : Alike mine tenant full purged)
    (other : mine sessionId = false) :
    Alike mine tenant (deleteSession world full sessionId) purged := by
  unfold deleteSession
  split
  · refine alike.remove (fun _ _ => rfl) ?_
    rw [OrderedDict.filter_erase, alike.files]
    refine OrderedDict.erase_eq_self fun present => ?_
    obtain ⟨entry, member, same⟩ := List.mem_map.mp present
    rw [← alike.files] at member
    have own := (List.mem_filter.mp member).2
    rw [same, other] at own
    cases own
  · exact alike

end FileBackend

/-! ## The SQLite backend -/

namespace SQLiteBackend

structure Alike (mine : String → Bool) (tenant : String) (full purged : SQLiteBackend) :
    Prop where
  sessions : full.sessions.filter (fun entry => mine entry.1) = purged.sessions
  messages : ∀ sessionId, mine sessionId = true →
    full.messagesOf sessionId = purged.messagesOf sessionId
  foreign : ∀ entry ∈ full.sessions, mine entry.1 = false → entry.2.tenant ≠ tenant
  keyed : ∀ entry ∈ full.sessions, entry.2.sessionId = entry.1

variable {full purged : SQLiteBackend} {sessionId agentId saver : String}
  {records : List MessageRecord} {metadata : Dict}

theorem Alike.lookup_eq (alike : Alike mine tenant full purged) (own : mine sessionId = true) :
    full.sessions.lookup sessionId = purged.sessions.lookup sessionId := by
  rw [← alike.sessions, OrderedDict.lookup_filter full.sessions_distinct]
  cases full.sessions.lookup sessionId with
  | none => rfl
  | some session => exact (if_pos own).symm

theorem Alike.selected_eq (alike : Alike mine tenant full purged) (world : World)
    (agentId : String) :
    full.selected world agentId (some tenant) = purged.selected world agentId (some tenant) := by
  unfold selected
  rw [← alike.sessions, List.filter_map, List.filter_map, List.filter_filter]
  congr 2
  refine List.filter_congr fun entry member => ?_
  cases own : mine entry.1 with
  | true => simp
  | false =>
      have other := alike.foreign entry member own
      simp [SessionRecord.ofTenant, other]

theorem Alike.mine_of_mem (alike : Alike mine tenant full purged) {record : SessionRecord}
    (member : record ∈ full.selected world agentId (some tenant)) :
    mine record.sessionId = true := by
  unfold selected at member
  have listed := (world.orderBy_perm _).mem_iff.mp member
  obtain ⟨there, passes⟩ := List.mem_filter.mp listed
  obtain ⟨entry, stored, rfl⟩ := List.mem_map.mp there
  have passes : entry.2.tenant = tenant := by
    simpa [SessionRecord.ofTenant] using (of_decide_eq_true passes).2
  by_contra other
  refine alike.foreign entry stored ?_ passes
  rw [← alike.keyed entry stored]
  exact Bool.eq_false_of_not_eq_true other

theorem sessionId_upserted (now : Nat) (s : SQLiteBackend)
    (keyed : ∀ entry ∈ s.sessions, entry.2.sessionId = entry.1) :
    (upserted now sessionId agentId saver metadata (s.sessions.lookup sessionId)).sessionId =
      sessionId := by
  cases stored : s.sessions.lookup sessionId with
  | none => rfl
  | some old => exact keyed _ (OrderedDict.mem_of_lookup stored)

theorem Alike.store_own (alike : Alike mine tenant full purged) (own : mine sessionId = true)
    (now : Nat) :
    Alike mine tenant (full.store now sessionId agentId saver metadata records)
      (purged.store now sessionId agentId saver metadata records) := by
  constructor
  · change (OrderedDict.assign _ _ _).filter _ = OrderedDict.assign _ _ _
    rw [OrderedDict.filter_assign_of_kept own, alike.sessions, alike.lookup_eq own]
  · intro other ownOther
    rw [messagesOf_store, messagesOf_store, alike.messages other ownOther]
  · intro entry member other
    rcases OrderedDict.mem_assign member with rfl | old
    · rw [own] at other
      cases other
    · exact alike.foreign entry old other
  · intro entry member
    rcases OrderedDict.mem_assign member with rfl | old
    · exact sessionId_upserted now full alike.keyed
    · exact alike.keyed entry old

theorem Alike.store_other (alike : Alike mine tenant full purged)
    (other : mine sessionId = false) (foreign : saver ≠ tenant) (now : Nat) :
    Alike mine tenant (full.store now sessionId agentId saver metadata records) purged := by
  constructor
  · change (OrderedDict.assign _ _ _).filter _ = _
    rw [OrderedDict.filter_assign_of_other other, alike.sessions]
  · intro id own
    rw [messagesOf_store, if_neg, alike.messages id own]
    rintro rfl
    rw [own] at other
    cases other
  · intro entry member apart
    rcases OrderedDict.mem_assign member with rfl | old
    · cases stored : full.sessions.lookup sessionId with
      | none => exact foreign
      | some old =>
          have before := alike.foreign (sessionId, old) (OrderedDict.mem_of_lookup stored) other
          exact before
    · exact alike.foreign entry old apart
  · intro entry member
    rcases OrderedDict.mem_assign member with rfl | old
    · exact sessionId_upserted now full alike.keyed
    · exact alike.keyed entry old

theorem Alike.deleteSession_own (alike : Alike mine tenant full purged) :
    Alike mine tenant (full.deleteSession sessionId) (purged.deleteSession sessionId) where
  sessions := by
    change (OrderedDict.erase _ _).filter _ = OrderedDict.erase _ _
    rw [OrderedDict.filter_erase, alike.sessions]
  messages := fun other own => by
    rw [messagesOf_deleteSession, messagesOf_deleteSession, alike.messages other own]
  foreign := fun entry member => alike.foreign entry (List.mem_of_mem_filter member)
  keyed := fun entry member => alike.keyed entry (List.mem_of_mem_filter member)

theorem Alike.deleteSession_other (alike : Alike mine tenant full purged)
    (other : mine sessionId = false) :
    Alike mine tenant (full.deleteSession sessionId) purged where
  sessions := by
    change (OrderedDict.erase _ _).filter _ = _
    rw [OrderedDict.filter_erase, alike.sessions]
    refine OrderedDict.erase_eq_self fun present => ?_
    obtain ⟨entry, member, same⟩ := List.mem_map.mp present
    rw [← alike.sessions] at member
    have own := (List.mem_filter.mp member).2
    rw [same, other] at own
    cases own
  messages := fun id own => by
    rw [messagesOf_deleteSession, if_neg, alike.messages id own]
    rintro rfl
    rw [own] at other
    cases other
  foreign := fun entry member => alike.foreign entry (List.mem_of_mem_filter member)
  keyed := fun entry member => alike.keyed entry (List.mem_of_mem_filter member)

end SQLiteBackend

/-! ## Either backend -/

namespace PersistenceBackend

def Alike (mine : String → Bool) (tenant : String) :
    PersistenceBackend → PersistenceBackend → Prop
  | .file full, .file purged => full.Alike mine tenant purged
  | .sqlite full, .sqlite purged => full.Alike mine tenant purged
  | _, _ => False

/-- The session is in no other place than where a save for the agent puts it. -/
def Home (backend : PersistenceBackend) (sessionId agentId : String) : Prop :=
  match backend with
  | .file s => s.Home sessionId agentId
  | .sqlite _ => True

/-- A call that the tenant makes for itself and under its own session ids. -/
def OwnCall (mine : String → Bool) (tenant : String) (backend : PersistenceBackend) :
    Operation → Prop
  | .saveSession sessionId agentId _ _ saver =>
      saver = tenant ∧ mine sessionId = true ∧ backend.Home sessionId agentId
  | .loadMessages sessionId => mine sessionId = true
  | .listSessions _ asked => asked = some tenant
  | .deleteSession sessionId => mine sessionId = true
  | .getLatestSession _ asked => asked = some tenant

/-- A call of another tenant that writes nothing under the tenant's session ids. -/
def OtherCall (mine : String → Bool) (tenant : String) : Operation → Prop
  | .saveSession sessionId _ _ _ saver => saver ≠ tenant ∧ mine sessionId = false
  | .deleteSession sessionId => mine sessionId = false
  | _ => True

variable {full purged : PersistenceBackend} {operation : Operation}

theorem Alike.own_call_file {full purged : FileBackend} (alike : full.Alike mine tenant purged)
    (own : OwnCall mine tenant (.file full) operation) :
    (FileBackend.call world full operation).2 = (FileBackend.call world purged operation).2 ∧
      FileBackend.Alike mine tenant (FileBackend.call world full operation).1
        (FileBackend.call world purged operation).1 := by
  cases operation with
  | saveSession sessionId agentId messages metadata saver =>
      obtain ⟨rfl, named, home⟩ := own
      simp only [FileBackend.call, FileBackend.saveSession]
      cases messages.mapM MessageRecord.fromOpenaiMessage with
      | none => exact ⟨rfl, alike⟩
      | some records => exact ⟨rfl, alike.put_own named home⟩
  | loadMessages sessionId =>
      refine ⟨?_, alike⟩
      simp only [FileBackend.call, FileBackend.loadMessages]
      rw [alike.find_eq own]
  | listSessions agentId asked =>
      obtain rfl : asked = some tenant := own
      exact ⟨congrArg Answer.sessions (alike.sessionsOf_eq agentId), alike⟩
  | deleteSession sessionId => exact ⟨rfl, alike.deleteSession_own own⟩
  | getLatestSession agentId asked =>
      obtain rfl : asked = some tenant := own
      refine ⟨?_, alike⟩
      simp only [FileBackend.call, alike.sessionsOf_eq]

theorem Alike.own_call_sqlite {full purged : SQLiteBackend}
    (alike : full.Alike mine tenant purged)
    (own : OwnCall mine tenant (.sqlite full) operation) :
    (SQLiteBackend.call world full operation).2 = (SQLiteBackend.call world purged operation).2 ∧
      SQLiteBackend.Alike mine tenant (SQLiteBackend.call world full operation).1
        (SQLiteBackend.call world purged operation).1 := by
  cases operation with
  | saveSession sessionId agentId messages metadata saver =>
      obtain ⟨rfl, named, _⟩ := own
      simp only [SQLiteBackend.call, SQLiteBackend.saveSession]
      split
      · exact ⟨rfl, alike.store_own named world.now⟩
      · exact ⟨rfl, alike⟩
  | loadMessages sessionId =>
      refine ⟨?_, alike⟩
      simp only [SQLiteBackend.call, SQLiteBackend.loadMessages, alike.messages sessionId own]
  | listSessions agentId asked =>
      obtain rfl : asked = some tenant := own
      refine ⟨?_, alike⟩
      simp only [SQLiteBackend.call, SQLiteBackend.listSessions, alike.selected_eq]
  | deleteSession sessionId => exact ⟨rfl, alike.deleteSession_own⟩
  | getLatestSession agentId asked =>
      obtain rfl : asked = some tenant := own
      refine ⟨?_, alike⟩
      simp only [SQLiteBackend.call, SQLiteBackend.getLatestSession, alike.selected_eq]

/-- Alike backends answer a tenant's own call alike and stay alike. -/
theorem Alike.own_call (alike : Alike mine tenant full purged) (world : World)
    (own : OwnCall mine tenant full operation) :
    (full.call world operation).2 = (purged.call world operation).2 ∧
      Alike mine tenant (full.call world operation).1 (purged.call world operation).1 := by
  cases full with
  | file full =>
      cases purged with
      | sqlite purged => exact alike.elim
      | file purged => exact own_call_file alike own
  | sqlite full =>
      cases purged with
      | file purged => exact alike.elim
      | sqlite purged => exact own_call_sqlite alike own

/-- A call of another tenant is not seen. -/
theorem Alike.other_call (alike : Alike mine tenant full purged) (world : World)
    (other : OtherCall mine tenant operation) :
    Alike mine tenant (full.call world operation).1 purged := by
  cases full with
  | file full =>
      cases purged with
      | sqlite purged => exact alike.elim
      | file purged =>
          change FileBackend.Alike mine tenant (FileBackend.call world full operation).1 purged
          replace alike : full.Alike mine tenant purged := alike
          cases operation with
          | saveSession sessionId agentId messages metadata saver =>
              simp only [FileBackend.call, FileBackend.saveSession]
              split
              · exact alike
              · exact alike.put_other other.2 other.1
          | deleteSession sessionId => exact alike.deleteSession_other other
          | loadMessages sessionId => exact alike
          | listSessions agentId asked => exact alike
          | getLatestSession agentId asked => exact alike
  | sqlite full =>
      cases purged with
      | file purged => exact alike.elim
      | sqlite purged =>
          change SQLiteBackend.Alike mine tenant (SQLiteBackend.call world full operation).1 purged
          replace alike : full.Alike mine tenant purged := alike
          cases operation with
          | saveSession sessionId agentId messages metadata saver =>
              simp only [SQLiteBackend.call, SQLiteBackend.saveSession]
              split
              · exact alike.store_other other.2 other.1 world.now
              · exact alike
          | deleteSession sessionId => exact alike.deleteSession_other other
          | loadMessages sessionId => exact alike
          | listSessions agentId asked => exact alike
          | getLatestSession agentId asked => exact alike

/-- The latest session of the tenant is one of its own. -/
theorem Alike.mine_of_latest (alike : Alike mine tenant full purged) {agentId : String}
    {latest : SessionRecord}
    (found : (full.call world (.getLatestSession agentId (some tenant))).2 =
      .latest (some latest)) : mine latest.sessionId = true := by
  cases full with
  | file full =>
      cases purged with
      | sqlite purged => exact alike.elim
      | file purged =>
          replace found : (full.sessionsOf agentId (some tenant)).head? = some latest :=
            Answer.latest.inj found
          exact FileBackend.Alike.mine_of_mem alike (List.mem_of_mem_head? found)
  | sqlite full =>
      cases purged with
      | file purged => exact alike.elim
      | sqlite purged =>
          replace found : (full.selected world agentId (some tenant)).head?.map
            SQLiteBackend.toRecord = some latest := Answer.latest.inj found
          obtain ⟨row, first, rfl⟩ := Option.map_eq_some_iff.mp found
          have own := SQLiteBackend.Alike.mine_of_mem alike (List.mem_of_mem_head? first)
          exact own

end PersistenceBackend

end YouMi.Memory
