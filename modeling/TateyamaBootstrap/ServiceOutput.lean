-- What the commands of the services leave on the standard output.
import TateyamaBootstrap.ServiceReports

namespace tateyama_bootstrap.services

open monitor_output server_calls json Command

def out? : Event → Option Text
  | .out text => some text
  | _ => none

/-- All that a command prints. -/
def stdout {α : Type} (x : Cmd α) : Text := (x.log.filterMap out?).flatten

theorem out?_record (r : Record) : out? (Monitored.record r) = none := rfl

theorem stdout_of_ends {α : Type} {x : Cmd α} {texts : List Text} {r : Except Error α}
    (h : Command.Ends out? x texts r) : stdout x = texts.flatten := by
  unfold stdout
  rw [h.log]

theorem ends_out_text (text : Text) : Command.Ends out? (out text) [text] (.ok ()) :=
  Ends.write rfl

theorem ends_data_text (monitor_output : Bool) (call : Call) :
    Command.Ends out? (data monitor_output call) [] (.ok ()) := by
  unfold data
  split
  · exact Ends.unseen rfl
  · exact Ends.pure

/-- A request prints nothing. -/
theorem ends_ask_text {T : Type} [Response T] (env : Env) (server : Server T)
    (request : Except Error Request) :
    Command.Ends out? (ask env.connect server request) [] (outcome env.connect server request) := by
  have h := ends_ask out? env.connect server request
  rwa [asked_unseen (fun _ => rfl) (fun _ => rfl)] at h

theorem ends_succeeds_text (monitor_output : Bool) :
    Command.Ends out? (succeeds monitor_output) [] (.ok (.returns .ok)) :=
  (ends_unrecorded out?_record _ _).after Ends.pure

/-- A command that succeeds prints what it makes of the response. -/
theorem stdout_answered {T : Type} [Response T] {env : Env} {server : Server T}
    {request : Except Error Request} {response : Option T} {k : Option T → Cmd Flow}
    {handler : Error → Cmd Flow} {texts : List Text} (m : Bool)
    (ho : outcome env.connect server request = .ok response)
    (hk : Command.Ends out? (k response) texts (.ok (.returns .ok))) :
    stdout (framed m ((ask env.connect server request >>= k).handle handler)) = texts.flatten := by
  have hask := ends_ask_text env server request
  rw [ho] at hask
  exact stdout_of_ends (framed_unrecorded out?_record m (hask.after hk).handle_ok)

/-- An exception that no handler takes leaves what has been printed. -/
theorem stdout_raised {T : Type} [Response T] {env : Env} {server : Server T}
    {request : Except Error Request} {response : Option T} {k : Option T → Cmd Flow}
    {handler : Error → Cmd Flow} {texts : List Text} (m : Bool) (e : Error)
    (ho : outcome env.connect server request = .ok response)
    (hk : Command.Ends out? (k response) texts (.error e)) (hhandler : handler e = .raise e) :
    stdout (framed m ((ask env.connect server request >>= k).handle handler)) = texts.flatten := by
  have hask := ends_ask_text env server request
  rw [ho] at hask
  have hraise : Command.Ends out? (handler e) [] (.error e) := by
    rw [hhandler]
    exact Ends.raise
  have hmiddle := (hask.after hk).handle_error hraise
  rw [List.append_nil] at hmiddle
  exact stdout_of_ends (framed_unrecorded out?_record m hmiddle)

end tateyama_bootstrap.services
