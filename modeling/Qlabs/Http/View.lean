import Qlabs.Http.Life

/-!
# Views of updated states

The functions of the program update one start at a time, mostly: the view of
that start is updated, and the others are as they were.
-/

namespace Qlabs.Http

variable {s : State} {g g' : Gen}

namespace State

@[simp] theorem server_setServer (v : Server) : (s.setServer g v).server g = v := by
  simp [setServer]

theorem server_setServer_of_ne (v : Server) (h : g' ≠ g) :
    (s.setServer g v).server g' = s.server g' :=
  Function.update_of_ne h _ _

@[simp] theorem setServer_setServer (v v' : Server) :
    (s.setServer g v).setServer g v' = s.setServer g v' := by
  simp [setServer]

theorem view_setServer (v : Server) :
    (s.setServer g v).view g' = if g' = g then { s.view g with server := v } else s.view g' := by
  split_ifs with h
  · subst h; simp [view, setServer]
  · simp [view, setServer, h]

theorem view_post (task : ServerTask) :
    (s.post g task).view g' = if g' = g then
      { s.view g with server := { s.server g with queue := (s.server g).queue ++ [task] } }
    else s.view g' :=
  view_setServer _

/-- Posting a task to a thread adds it to its queue. -/
theorem queue_post (t : Gen) (task : ServerTask) : ((s.post t task).server g).queue =
    (s.server g).queue ++ if g = t then [task] else [] := by
  rcases eq_or_ne g t with rfl | h
  · simp [post]
  · simp [post, setServer, h]

theorem view_terminating {f : Option Termination} (hold : ∀ t ∈ s.terminating, t.gen = g)
    (hnew : ∀ t ∈ f, t.gen = g) :
    { s with terminating := f }.view g' =
      if g' = g then { s.view g with terminating := f } else s.view g' := by
  split_ifs with h
  · subst h
    have hf : f.filter (·.gen = g') = f := by
      cases f with
      | none => rfl
      | some t => simp [Option.filter_some, hnew t rfl]
    simp [view, hf]
  · have hf : f.filter (·.gen = g') = none := by
      rw [Option.filter_eq_none_iff]
      intro t ht
      simp [hnew t ht, Ne.symm h]
    have hs : s.terminating.filter (·.gen = g') = none := by
      rw [Option.filter_eq_none_iff]
      intro t ht
      simp [hold t ht, Ne.symm h]
    simp [view, hf, hs]

theorem tasks_of_view {task : MainTask} {tasks : List MainTask} (h : s.tasks = task :: tasks)
    (hg : task.handler = g) : (s.view g).tasks = task :: tasks.filter (·.handler = g) := by
  simp [view, h, hg]

/-- The task at the front is from one start: the others have the rest. -/
theorem filter_tasks_of_ne {task : MainTask} {tasks : List MainTask} (h : s.tasks = task :: tasks)
    (hg : task.handler = g) : ∀ g' ≠ g, tasks.filter (·.handler = g') =
      s.tasks.filter (·.handler = g') := by
  intro g' hg'
  simp [h, hg, hg'.symm]

theorem view_postMain {task : MainTask} (hg : task.handler = g) :
    (s.postMain task).view g' = if g' = g then
      { s.view g with tasks := (s.view g).tasks ++ [task] } else s.view g' := by
  split_ifs with h
  · subst h; simp [view, postMain, hg]
  · simp [view, postMain, hg, Ne.symm h]

theorem view_handler_eq_some {h : SimpleHttpHandler} :
    (s.view g).handler = some h ↔ s.httpHandler = some h ∧ h.id = g := by
  simp [view, Option.filter_eq_some_iff]

theorem view_handler_eq_none :
    (s.view g).handler = none ↔ ∀ h, s.httpHandler = some h → h.id ≠ g := by
  simp [view, Option.filter_eq_none_iff]

theorem alive_iff : s.Alive g ↔ ∃ h, (s.view g).handler = some h := by
  simp [Alive, view_handler_eq_some]

/-- Whether an object is deleted is known from its own start. -/
theorem isDeleted_iff {r : Resource} :
    s.IsDeleted r ↔ r ∈ (s.view r.gen).deleted.map Prod.fst := by
  simp [IsDeleted, view]

theorem view_deleted (r : Resource) (runner : Runner) :
    { s with deleted := s.deleted ++ [(r, runner)] }.view g' = if g' = r.gen then
      { s.view r.gen with deleted := (s.view r.gen).deleted ++ [(r, runner)] } else s.view g' := by
  split_ifs with hg
  · subst hg; simp [view]
  · simp [view, Ne.symm hg]

theorem delete_eq {r : Resource} (h : ¬s.IsDeleted r) (runner : Runner) :
    s.delete r runner = { s with deleted := s.deleted ++ [(r, runner)] } :=
  if_neg h

@[simp] theorem starts_delete (r : Resource) (runner : Runner) :
    (s.delete r runner).starts = s.starts := by
  rw [delete]
  split_ifs <;> rfl

@[simp] theorem httpHandler_delete (r : Resource) (runner : Runner) :
    (s.delete r runner).httpHandler = s.httpHandler := by
  rw [delete]
  split_ifs <;> rfl

@[simp] theorem tasks_delete (r : Resource) (runner : Runner) :
    (s.delete r runner).tasks = s.tasks := by
  rw [delete]
  split_ifs <;> rfl

@[simp] theorem server_delete (r : Resource) (runner : Runner) :
    (s.delete r runner).server = s.server := by
  rw [delete]
  split_ifs <;> rfl

theorem isDeleted_delete (r : Resource) (runner : Runner) : (s.delete r runner).IsDeleted r := by
  by_cases h : s.IsDeleted r
  · rwa [delete, if_pos h]
  · rw [delete_eq h]
    simp [IsDeleted]

/-- Deleting two objects, one after the other. -/
theorem delete_delete {r r' : Resource} {runner : Runner} (h : ¬s.IsDeleted r)
    (h' : ¬s.IsDeleted r') (hne : r ≠ r') :
    (s.delete r runner).delete r' runner =
      { s with deleted := s.deleted ++ [(r, runner), (r', runner)] } := by
  rw [delete_eq h, delete_eq]
  · simp
  · simpa [IsDeleted, hne.symm] using h'

theorem postOn_eq {t : Gen} (h : ¬s.IsDeleted (.thread t)) (task : ServerTask) :
    s.postOn (some t) task = s.post t task :=
  if_neg h

@[simp] theorem httpHandler_postOn (thread : Option Gen) (task : ServerTask) :
    (s.postOn thread task).httpHandler = s.httpHandler := by
  cases thread with
  | none => rfl
  | some t =>
    rw [postOn]
    split_ifs <;> rfl

@[simp] theorem httpHandler_onWrapper (w : Option Gen) (entry : Entry) :
    (s.onWrapper w entry).httpHandler = s.httpHandler := by
  cases w with
  | none => rfl
  | some w =>
    simp only [onWrapper]
    split_ifs
    · rfl
    · cases (s.server w).serverWrapper <;> rfl

theorem onWrapper_eq {w : Gen} {wrapper : ServerWrapper} (h : ¬s.IsDeleted (.serverWrapper w))
    (hw : (s.server w).serverWrapper = some wrapper) (entry : Entry) :
    s.onWrapper (some w) entry = s.setServer w
      { s.server w with serverWrapper := some (wrapper.record entry) } := by
  simp [onWrapper, h, hw]

/-- A method of the handler alive runs. -/
theorem onHandler_eq {h h' : SimpleHttpHandler} {post : Option (Gen × ServerTask)}
    {method : SimpleHttpHandler → SimpleHttpHandler × Option (Gen × ServerTask)}
    (hh : s.httpHandler = some h) (hm : method h = (h', post)) :
    s.onHandler h.id method = post.elim { s with httpHandler := some h' } fun p =>
      { s with httpHandler := some h' }.post p.1 p.2 := by
  cases post <;> simp [onHandler, hh, hm]

/-- A method of a handler that is no more is dropped. -/
theorem onHandler_dropped (h : (s.view g).handler = none)
    (method : SimpleHttpHandler → SimpleHttpHandler × Option (Gen × ServerTask)) :
    s.onHandler g method = s := by
  cases hh : s.httpHandler with
  | none => simp [onHandler, hh]
  | some handler => simp [onHandler, hh, view_handler_eq_none.1 h handler hh]

/-- A handler that owns nothing yet takes its server. -/
theorem serverStarted_alive {h : SimpleHttpHandler} (hh : s.httpHandler = some h)
    (howned : h.owned = []) (t w : Gen) (socketFactory : Option Gen) (ip : Option IPEndPoint) :
    s.serverStartedOnDedicatedRunner h.id (some t) (some w) socketFactory ip =
      { s with httpHandler := some (h.serverStarted (some t) (some w) socketFactory ip) } := by
  simp [serverStartedOnDedicatedRunner, hh, howned]

/-- Without a handler, or a wrapper, what has been made is terminated. -/
theorem serverStarted_dropped {thread serverWrapper : Option Gen}
    (h : (s.view g).handler = none ∨ serverWrapper = none) (socketFactory : Option Gen)
    (ip : Option IPEndPoint) :
    s.serverStartedOnDedicatedRunner g thread serverWrapper socketFactory ip =
      { s with terminating :=
        terminateOnDeciatedRunner g thread serverWrapper socketFactory } := by
  cases hh : s.httpHandler with
  | none => simp [serverStartedOnDedicatedRunner, hh]
  | some handler =>
    have : ¬(handler.id = g ∧ thread.isSome ∧ serverWrapper.isSome) := by
      rintro ⟨hid, -, hw⟩
      rcases h with h | rfl
      · exact view_handler_eq_none.1 h handler hh hid
      · cases hw
    simp [serverStartedOnDedicatedRunner, hh, this]

end State

end Qlabs.Http
