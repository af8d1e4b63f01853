import ShimSpin.Lib.Store
import ShimSpin.Lib.Copies
import ShimSpin.LayerOrder
import ShimSpin.CompleteImage
import ShimSpin.AotTrust
import ShimSpin.Variables
import ShimSpin.Panics
import ShimSpin.Precompile
import ShimSpin.Provenance
import ShimSpin.Installer
import ShimSpin.InstallerRuns
import ShimSpin.EnvImport
import ShimSpin.TriggerLaunch
import ShimSpin.InstallerEdits
import ShimSpin.Lib.Toml.Scalar
import ShimSpin.Lib.Transducer
import ShimSpin.InstallerText
import ShimSpin.Lib.Toml.Lexer
import ShimSpin.Lib.Toml.Lines
import ShimSpin.Lib.Toml.Tables
import ShimSpin.Registration
import ShimSpin.InstallerReset
import ShimSpin.InstallerCopies
import ShimSpin.InstallerDbus
import ShimSpin.InstallerSed
import ShimSpin.CompiledImage
import ShimSpin.CompleteRun
import ShimSpin.Restarts
import ShimSpin.Selection
