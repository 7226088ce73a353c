import SnappCollector.Control.Commands

/-!
# What a client reads

The texts that a worker sends on a connection whose client reads all of them: the greeting, the
prompt before each command, and the answers.
-/

namespace SnappCollector.Control

open CLib

inductive Answer where
  | goodbye
  | specify_password
  | login_successful
  | login_failure
  | reload_failed
  | reload_successful (secs : Int32)
  /-- `do_regexp` sends none -/
  | nothing
  | status (num_active_collection_classes num_hosts num_collections : Int32)
      (avg_queue_len_1min avg_queue_len_5min : UInt64)
  | help
  | not_logged_in
  | not_recognized
deriving DecidableEq

def number_line (label : String) (number : CStr) : CStr := label.toList ++ (number ++ ['\r', '\n'])

def Answer.text : Answer → CStr
  | .goodbye => "200 Goodbye\r\n".toList
  | .specify_password => "331 Please specify the password\r\n".toList
  | .login_successful => "230 Login Sucessful\r\n".toList
  | .login_failure => "530 Login Failure\r\n".toList
  | .reload_failed => "550 Reload failed afer 55 secs\r\n".toList
  | .reload_successful secs =>
      "200 Reload sucessful (".toList ++
        (dec_int secs.toInt ++ ' ' :: "secs for reload)\r\n".toList)
  | .nothing => []
  | .status classes hosts collections avg_1min avg_5min =>
      "211 System Status\r\n".toList ++
        (number_line "Number of running collection classes: " (dec_int classes.toInt) ++
          (number_line "Total number of collection hosts: " (dec_int hosts.toInt) ++
            (number_line "Total number of collections: " (dec_int collections.toInt) ++
              (number_line "avg queue len 1 min: " (dec avg_1min.toNat) ++
                number_line "avg queue len 5 min: " (dec avg_5min.toNat)))))
  | .help =>
      "Commands are: \r\n\r\n".toList ++
        "help  logregexp  pass    quit   reload    status   user  \r\n".toList
  | .not_logged_in => "530 Not logged in\r\n".toList
  | .not_recognized => "500 Command not recognized\r\n".toList

structure Found where
  num_active_collection_classes : Int32
  num_hosts : Int32
  num_collections : Int32
  avg_queue_len_1min : UInt64
  avg_queue_len_5min : UInt64
  /-- how many seconds the reload took, if there was a new configuration in time -/
  reload_secs : Option Int32

def Work.answer (found : Found) : Work → Answer
  | .goodbye => .goodbye
  | .user => .specify_password
  | .login => .login_successful
  | .login_failure => .login_failure
  | .do_reload =>
      match found.reload_secs with
      | none => .reload_failed
      | some secs => .reload_successful secs
  | .do_regexp _ => .nothing
  | .send_status =>
      .status found.num_active_collection_classes found.num_hosts found.num_collections
        found.avg_queue_len_1min found.avg_queue_len_5min
  | .send_help => .help
  | .not_logged_in => .not_logged_in
  | .not_recognized => .not_recognized
  | .undefined => .nothing

def answers (found : Nat → Found) (served : List Served) : List Answer :=
  served.mapIdx fun i served => served.work.answer (found i)

def hello (VERSION : CStr) : CStr :=
  ("220 SNAPP server (".toList ++ VERSION ++ ") ready\r\n".toList).take (CONTROL_BUF_SIZE - 2)

def prompt : CStr := "snapp> ".toList

/-- The answers with the prompts behind them: none follows the goodbye. -/
def answer_texts : List Answer → CStr
  | [] => []
  | .goodbye :: _ => Answer.goodbye.text
  | answer :: rest => answer.text ++ prompt ++ answer_texts rest

def transcript (VERSION : CStr) (answers : List Answer) : CStr :=
  hello VERSION ++ prompt ++ answer_texts answers

end SnappCollector.Control
