import Etre.Go
import Etre.Ddl.Config
import Etre.Ddl.Index
import Etre.Ddl.Regex
import Etre.Ddl.Patterns
import Etre.Ddl.Validator
import Etre.Ddl.Prog
import Etre.Ddl.Reconcile
import Etre.Ddl.Runs
import Etre.Ddl.Concurrent
import Etre.Ddl.Safety
import Etre.Ddl.Boot
import Etre.Server
import Etre.Client
