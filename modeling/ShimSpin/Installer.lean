import ShimSpin.Lib.ErrExit
import ShimSpin.Lib.Search

namespace ShimSpin.Installer
open ErrExit
set_option autoImplicit true

abbrev Text := List Char

/-- The distributions whose configuration the installer edits in place. -/
inductive Distro where
  | generic
  | microk8s
  | k0s
  deriving DecidableEq

def kwasmDir : Distro → String
  | .generic => "/opt/kwasm"
  | .microk8s => "/var/snap/microk8s/common/kwasm"
  | .k0s => "/opt/kwasm"

/-- The commands of the script, under which `set -e` stops it when they fail. -/
inductive Command where
  | touchConf
  | sayNoTemplate
  | aptUpdate
  | aptInstall
  | yumInstall
  | dnfInstall
  | apkAdd
  | sayNoPackageManager
  | sayCgroup
  | makeBinDir
  | copyShim
  | makeLocalBinDir
  | linkShim
  | sayAdding
  | appendRuntime
  | removeActive
  | saySetting
  | appendOptions
  | touchActive
  | restartDbus
  | restart (service : String)
  | sayNoChange
  deriving DecidableEq

/-- What a run of the installer finds on the node. `unitListed` is how the pipeline ends that looks
for a unit in the list of all units. -/
structure Run where
  systemdCgroup : Option String
  templateFound : Bool
  which : String → Bool
  unitListed : String → Bool
  initScript : Bool
  fails : Command → Bool

/-- The parts of a node that decide whether its service is restarted. `current` says whether it
was restarted after the last change to the text of its configuration. -/
structure Node where
  config : Text
  active : Bool
  current : Bool
  deriving DecidableEq

def Node.edit (n : Node) (text : String) : Node :=
  { n with config := n.config ++ text.toList, current := false }

/-- `grep -q` for a basic regular expression in which only the dot is special. -/
def grep (pattern : String) (text : Text) : Bool :=
  Search.occurs (pattern.toList.map fun p c => if p = '.' then c ≠ '\n' else c = p) text

def hasSpin (text : Text) : Bool := grep "spin" text

def isVersion3 (text : Text) : Bool := grep "version = 3" text

def hasOptions (text : Text) : Bool := grep "runtimes.spin.options" text

def runtimeBlock (d : Distro) (version3 : Bool) : String :=
  (if version3 then "\n[plugins.\"io.containerd.cri.v1.runtime\".containerd.runtimes.\"spin\"]"
    else "\n[plugins.\"io.containerd.grpc.v1.cri\".containerd.runtimes.spin]") ++
  "\n    runtime_type = \"" ++ kwasmDir d ++ "/bin/containerd-shim-spin-v2\"\n\n"

def optionsBlock (cgroup : String) (version3 : Bool) : String :=
  (if version3 then "\n[plugins.\"io.containerd.cri.v1.runtime\".containerd.runtimes.spin.options]"
    else "\n[plugins.\"io.containerd.grpc.v1.cri\".containerd.runtimes.spin.options]") ++
  "\n    SystemdCgroup = " ++ cgroup ++ "\n\n"

def detect (d : Distro) (r : Run) : Script Command String :=
  match d with
  | .generic => .done
  | .microk8s => if r.templateFound then .done else .seq (.cmd .sayNoTemplate id) .exit
  | .k0s => .cmd .touchConf id

/-- The setting that the environment or else the distribution gives. -/
def systemdCgroup (d : Distro) (r : Run) : String :=
  if r.systemdCgroup = none ∧ d = .microk8s then "false"
  else
    match r.systemdCgroup with
    | some value => if value = "" then "true" else value
    | none => "true"

def installDbus (r : Run) : Script Command String :=
  .ite (fun cgroup => cgroup = "true")
    (if r.which "dbus-daemon" then .done
      else if r.which "apt-get" then .seq (.cmd .aptUpdate id) (.cmd .aptInstall id)
      else if r.which "yum" then .cmd .yumInstall id
      else if r.which "dnf" then .cmd .dnfInstall id
      else if r.which "apk" then .cmd .apkAdd id
      else .seq (.cmd .sayNoPackageManager id)
        (.seq (.set fun _ => "false") (.cmd .sayCgroup id)))
    .done

def installShim : Script Command String :=
  .seq (.cmd .makeBinDir id) (.seq (.cmd .copyShim id)
    (.seq (.cmd .makeLocalBinDir id) (.cmd .linkShim id)))

/-- The script up to the edits of the configuration. It sets a shell variable only. -/
def prepare (d : Distro) (r : Run) : Script Command String :=
  .seq (detect d r) (.seq (.set fun _ => systemdCgroup d r) (.seq (installDbus r) installShim))

def appendBlock (name : Command) (block : Bool → String) : Script Command Node :=
  .ite (fun n => isVersion3 n.config)
    (.cmd name fun n => n.edit (block true))
    (.cmd name fun n => n.edit (block false))

def addRuntime (d : Distro) : Script Command Node :=
  .ite (fun n => !hasSpin n.config)
    (.seq (.cmd .sayAdding id)
      (.seq (appendBlock .appendRuntime (runtimeBlock d))
        (.cmd .removeActive fun n => { n with active := false })))
    .done

def wantsOptions (text : Text) (cgroup : String) : Bool := !hasOptions text && cgroup = "true"

def addOptions (cgroup : String) : Script Command Node :=
  .ite (fun n => wantsOptions n.config cgroup)
    (.seq (.cmd .saySetting id) (appendBlock .appendOptions (optionsBlock cgroup)))
    .done

def service (d : Distro) (r : Run) : String :=
  match d with
  | .microk8s => "snap.microk8s.daemon-containerd"
  | .k0s => if r.unitListed "k0sworker" then "k0sworker" else "k0scontroller"
  | .generic => if r.initScript then "/etc/init.d/containerd" else "containerd"

def activate (d : Distro) (r : Run) (cgroup : String) : Script Command Node :=
  .ite (fun n => !n.active)
    (.seq (.cmd .touchActive fun n => { n with active := true })
      (.seq (.ite (fun _ => cgroup = "true") (.cmd .restartDbus id) .done)
        (.cmd (.restart (service d r)) fun n => { n with current := true })))
    (.cmd .sayNoChange id)

def configure (d : Distro) (r : Run) (cgroup : String) : Script Command Node :=
  .seq (addRuntime d) (.seq (addOptions cgroup) (activate d r cgroup))

def install (d : Distro) (r : Run) (n : Node) : Node × Bool :=
  match run r.fails (prepare d r) "" with
  | (cgroup, true) => run r.fails (configure d r cgroup) n
  | (_, false) => (n, false)

def installs (d : Distro) (rs : List Run) (n : Node) : Node :=
  rs.foldl (fun n r => (install d r n).1) n

end ShimSpin.Installer
