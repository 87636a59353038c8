import LineageLoad.Proofs.Workload.Guarantees
import LineageLoad.Proofs.Workload.Requests

/-!
Requests that a preparation issues itself, to make up for what updates miss. They are open, so none
is passed over, and the contents grow by all of them.
-/

namespace LineageLoad

variable {γ : Type} {load : Load Sampler} {db : Database} {name : String} {connection : Connection}

/-- What a preparation leaves: the requests of its items are open, and since it began the contents
changed by what it made.
-/
def Load.Opens (load : Load Sampler) (made : Nat) (before : Database) (name : String)
    (connection : Connection) (items : List WorkItem) (p : Preparation Server γ) : Prop :=
  ∃ db, p.Reaches name connection db ∧ db.Sound ∧ load.Changes made 0 before db
    ∧ load.Pending db (items.map (·.call))

/-- Requests that are open for the contents at hand are what a preparation leaves that changed the
contents before.
-/
theorem Load.opens_of_pending {made : Nat} {next : Database} (sound : next.Sound)
    (changes : load.Changes made 0 db next) {action : PrepareM Server γ (List WorkItem)}
    (ensures : Ensures (Preparation.Reaches · name connection next) action fun items p =>
      load.Pending next (items.map (·.call)) ∧ p.Reaches name connection next)
    : Ensures (Preparation.Reaches · name connection next) action
        (load.Opens made db name connection) :=
  ensures.weaken fun _ _ ⟨pending, reaches⟩ => ⟨next, reaches, sound, changes, pending⟩

theorem note_keeps (note : Note)
    : Ensures (Preparation.Reaches · name connection db)
        (PrepareM.note note : PrepareM Server γ Unit) fun _ p => p.Reaches name connection db :=
  fun _ reaches => .answered reaches

/-- A call that is served changes the contents as it would if they were asked directly. -/
theorem issue_serves {call : Call} {reply : call.Reply} {next : Database}
    (served : Database.serve call db = (.ok reply, next)) (failed : BenchError → Note)
    : Ensures (Preparation.Reaches · name connection db)
        (PrepareM.issue (Server.store connection) failed call : PrepareM Server γ Unit)
        fun _ p => p.Reaches name connection next := by
  intro p reaches
  have reached := (Server.Reaches.serve reaches call).2
  rw [served] at reached
  exact .answered reached

/-- Open requests that are issued one after the other are all served, by induction on the items. -/
theorem forM_issue_changes {items : List WorkItem} (sound : db.Sound)
    (pending : load.Pending db (items.map (·.call))) (failed : WorkItem → BenchError → Note)
    : Ensures (Preparation.Reaches · name connection db)
        (items.forM fun item =>
          (PrepareM.issue (Server.store connection) (failed item) item.call
            : PrepareM Server γ Unit))
        fun _ p => ∃ next, p.Reaches name connection next ∧ next.Sound
          ∧ load.Changes 0 items.length db next := by
  induction items generalizing db with
  | nil => exact .pure fun _ reaches => ⟨db, reaches, sound, .refl load db⟩
  | cons item rest ih =>
      have pending : load.Pending db ([] ++ item.call :: rest.map (·.call)) := pending
      obtain ⟨reply, middle, served, changes, others⟩ := pending.serve sound
      have kept := sound.serve item.call
      rw [served] at kept
      refine .bind (issue_serves served (failed item)) fun _ => ?_
      refine (ih kept others).weaken fun _ p => ?_
      rintro ⟨next, reaches, sound, more⟩
      refine ⟨next, reaches, sound, ?_⟩
      rw [List.length_cons, Nat.add_comm]
      exact changes.trans more

end LineageLoad
