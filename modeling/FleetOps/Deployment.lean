import FleetOps.Failure
import FleetOps.Jobs.Bodies
import FleetOps.Scheduler.Trigger
import FleetOps.Settings.Loading
import FleetOps.Shell.Starter

set_option autoImplicit false

namespace FleetOps

def SchedulerError.failure (e : SchedulerError) : Failure :=
  match e with
  | .io cause => { message := e.message, causes := [cause.message] }
  | _ => { message := e.message }

structure Surroundings where
  home : String
  clock : Clock
  place : String → Place
  starter : Starter := Shell.start

inductive DeploymentError where
  | store (folder : String) (e : SchedulerError)
  | schedule (e : SchedulerError)
deriving DecidableEq, Repr

def DeploymentError.failure : DeploymentError → Failure
  | .store folder e => e.failure.under ("failed to open execution store in " ++ folder)
  | .schedule e => e.failure.under "invalid schedule descriptor"

def pathIn (folder name : String) : String :=
  if folder = "" ∨ folder.endsWith "/" then folder ++ name else folder ++ "/" ++ name

namespace Settings

def dataFolder (s : Settings) (around : Surroundings) : String :=
  expandPath around.home s.scheduler.dataDir

def openStore (s : Settings) (around : Surroundings) : Except DeploymentError FileStore :=
  let folder := s.dataFolder around
  let path := pathIn folder "executions"
  (FileStore.openAt path (around.place path)).mapError (.store folder)

def deploy (s : Settings) (around : Surroundings) : Except DeploymentError Scheduler := do
  let store ← s.openStore around
  let descriptors ← (DescriptorTable.ofSettings s.schedules).mapError .schedule
  return { clock := around.clock, store := .files store, descriptors, bodies := s.bodies around.starter,
           pageLimit := s.scheduler.pageLimit }

end Settings

end FleetOps
