import Rustcdc.Source.Sqlserver.Progress

/-! The schema changes a SQL Server stream reports.  A call compares the capture instances it knows with
those the server has, takes the latter over, and returns the differences before it reads anything. -/
namespace Rustcdc.Sqlserver
open List Machine

/-- The differences a call finds.  Events that were put back come first, without a comparison. -/
def StreamSession.detects (s : StreamSession) (answer : CallAnswer) : List Event :=
  if s.handle.requeuedEvents.isEmpty then
    eventsOf (s.handle.refreshMetasAndCollectSchemaEvents answer).2
  else []

variable {s : StreamSession} {answer : CallAnswer}

/-- A call that finds differences returns as many as the limit allows, and reads no row. -/
theorem nextEvents_detects (h : s.detects answer ≠ []) :
    ∃ metas, nextEvents s answer = some (⟨{s.handle with metas := metas},s.marked⟩,
      .ok ((s.detects answer).take s.handle.maxEventsPerPoll)) := by
  rw [StreamSession.detects] at h ⊢
  split_ifs at h ⊢ with hr
  · rw [nextEvents,hr,SqlServerStreamHandle.refreshMetasAndCollectSchemaEvents] at *
    cases hf : answer.refresh with
    | error => simp [hf,eventsOf] at h
    | ok rf =>
      simp only [hf,eventsOf] at h ⊢
      exact ⟨retainKnownCaptureFloors s.handle.metas rf,by simp [h]⟩
  · exact absurd rfl h

namespace StreamTrace
/-- The differences found in a run, in the order of the calls. -/
def detected : StreamTrace → List CallAnswer → List Event
  | _, [] => []
  | t, answer::calls => t.session.detects answer++detected (t.poll answer) calls

/-- A call returns everything it finds. -/
def Fits (t : StreamTrace) (answer : CallAnswer) : Prop :=
  (t.session.detects answer).length ≤ t.session.handle.maxEventsPerPoll

variable {t : StreamTrace} {calls : List CallAnswer}

lemma poll_detects (hf : t.Fits answer) (h : t.session.detects answer ≠ []) :
    (t.poll answer).returned = t.returned++t.session.detects answer ∧
      (t.poll answer).session.handle.windowBuffer = t.session.handle.windowBuffer := by
  obtain ⟨metas,hn⟩ := nextEvents_detects h
  rw [take_of_length_le hf] at hn
  rw [poll,hn]
  exact ⟨rfl,rfl⟩

lemma poll_returned (t : StreamTrace) (answer : CallAnswer) :
    ∃ more, (t.poll answer).returned = t.returned++more := by
  rw [poll]
  split
  · exact ⟨[],(append_nil _).symm⟩
  · exact ⟨_,rfl⟩

/-- What is found and fits is returned, each difference in the call that finds it. -/
theorem sublist_returned (hf : Meets poll Fits t calls) :
    (t.returned++t.detected calls).Sublist (run poll t calls).returned := by
  induction calls generalizing t with
  | nil => simp [detected]
  | cons answer calls ih =>
    refine .trans ?_ (ih hf.2)
    rw [detected,← append_assoc]
    refine Sublist.append ?_ (.refl _)
    by_cases h : t.session.detects answer = []
    · obtain ⟨m,hm⟩ := t.poll_returned answer
      rw [h,append_nil,hm]
      exact sublist_append_left _ _
    · rw [(poll_detects hf.1 h).1]

/-- If no call finds more differences than one call may return, none is lost: a call that finds any
returns them all, and until then no row has been read under the new metadata. -/
theorem schema_changes_returned (s : StreamSession) (calls : List CallAnswer) (hfits : Meets poll Fits ⟨s,[]⟩ calls) :
    (detected ⟨s,[]⟩ calls).Sublist (run poll ⟨s,[]⟩ calls).returned ∧
      ∀ before answer after, calls = before++answer::after →
        let t := run poll ⟨s,[]⟩ before
        t.session.detects answer ≠ [] → (t.poll answer).returned = t.returned++t.session.detects answer ∧
            (t.poll answer).session.handle.windowBuffer = t.session.handle.windowBuffer := by
  refine ⟨sublist_returned hfits,?_⟩
  rintro before answer after rfl t h
  exact poll_detects ((meets_append _ _ _ _ _).mp hfits).2.1 h

def refreshedCall (metas : List CaptureInstanceMeta) (rows : List SqlServerRawChange) : CallAnswer :=
  {ordersCall 6 rows (.ok []) with refresh := .ok metas}

def usersInstance : CaptureInstanceMeta := ⟨"dbo_users","dbo","users",["id"],["id"],0⟩

/-- A column more and a table more, both within the limit, and then a row. -/
theorem schema_changes_returned_sample :
    let start : StreamTrace := ⟨⟨{ordersStream 6 with maxEventsPerPoll := 3},[]⟩,[]⟩
    let metas := [{ordersInstance with capturedColumns := ["id","note"]},usersInstance]
    let calls := [refreshedCall metas [],refreshedCall metas [insertAt 5]]
    (detected start calls).map (·.table) = ["orders__ddl_events","users__ddl_events"] ∧
      (detected start calls).Sublist (run poll start calls).returned ∧
      2 < (run poll start calls).returned.length := by
  intro start metas calls
  have hf : Meets poll Fits start calls := by
    unfold Fits
    decide +kernel
  exact ⟨by decide +kernel,(schema_changes_returned _ calls hf).1,by decide +kernel⟩

/-- Two differences at a limit of one: the second is never returned. -/
theorem second_difference_lost :
    let call := refreshedCall [usersInstance] []
    (detected ⟨⟨ordersStream 6,[]⟩,[]⟩ [call,call]).map (·.table) = ["orders__ddl_events","users__ddl_events"] ∧
      (run poll ⟨⟨ordersStream 6,[]⟩,[]⟩ [call,call]).returned.map (·.table) = ["orders__ddl_events"] := by
  decide +kernel
end StreamTrace
end Rustcdc.Sqlserver
